import Mathlib.Algebra.Order.Ring.Int
import Mathlib.Data.List.Basic

namespace ConnectForge

/-! Identifiers and quantities of the commit log.

Offsets, segment ids and counters are `u64` in the source and natural numbers
here; the one place where their width is observable, the eight-byte framing of
an offset, reduces modulo `2 ^ 64` explicitly. -/

/-- The largest number of values a `u64` can take. -/
def u64Modulus : Nat := 2 ^ 64

/-- The largest number of values a `u32` can take. -/
def u32Modulus : Nat := 2 ^ 32

def Offset.zero : Nat := 0

def Offset.next (offset : Nat) : Nat := offset + 1

/-- Bytes of a file, a payload or an encoded record. -/
abbrev Bytes := List UInt8

/-- `str::as_bytes`. -/
def asBytes (text : String) : Bytes := text.toByteArray.data.toList

@[simp] theorem asBytes_append (first second : String) :
    asBytes (first ++ second) = asBytes first ++ asBytes second := by
  simp [asBytes, String.toByteArray_append]

theorem asBytes_ofList (chars : List Char) :
    asBytes (String.ofList chars) = chars.flatMap String.utf8EncodeChar := by
  simp [asBytes, List.utf8Encode]

def maxTopicNameLen : Nat := 255

def maxPayloadBytes : Nat := 1024 * 1024

def maxConnectorIdLen : Nat := 128

/-- A record, topic, or configuration value that violates a domain invariant. -/
inductive InvalidRecord where
  | emptyPayload
  | payloadTooLarge (size : Nat)
  | emptyTopicName
  | topicNameTooLong (size : Nat)
  | invalidTopicChar
  | zeroPartitions
  | zeroSegmentSize
deriving Repr, DecidableEq

/-- `u8::is_ascii_alphanumeric`. -/
def isAsciiAlphanumeric (byte : UInt8) : Bool :=
  (48 ≤ byte && byte ≤ 57) || (65 ≤ byte && byte ≤ 90) || (97 ≤ byte && byte ≤ 122)

/-- The character class `[A-Za-z0-9._-]` shared by topic names and connector
ids. -/
def isNameByte (byte : UInt8) : Bool :=
  isAsciiAlphanumeric byte || byte == 45 || byte == 95 || byte == 46

/-- The checks a name has to pass: non-empty, at most `maxLen` bytes, and only
bytes of the name class. -/
def checkName (maxLen : Nat) (raw : String) : Except InvalidRecord Unit :=
  if (asBytes raw).isEmpty then .error .emptyTopicName
  else if maxLen < (asBytes raw).length then .error (.topicNameTooLong (asBytes raw).length)
  else if !(asBytes raw).all isNameByte then .error .invalidTopicChar
  else .ok ()

structure TopicName where
  asStr : String
  valid : checkName maxTopicNameLen asStr = .ok ()
deriving DecidableEq

def TopicName.new (name : String) : Except InvalidRecord TopicName :=
  match valid : checkName maxTopicNameLen name with
  | .ok () => .ok ⟨name, valid⟩
  | .error reason => .error reason

structure ConnectorId where
  asStr : String
  valid : checkName maxConnectorIdLen asStr = .ok ()
deriving DecidableEq

def ConnectorId.new (raw : String) : Except InvalidRecord ConnectorId :=
  match valid : checkName maxConnectorIdLen raw with
  | .ok () => .ok ⟨raw, valid⟩
  | .error reason => .error reason

/-- `Display` of a `SegmentId`: the base offset in decimal, zero-padded to
twenty digits. -/
def SegmentId.display (base : Nat) : String :=
  String.ofList (List.replicate (20 - (Nat.toDigits 10 base).length) '0' ++ Nat.toDigits 10 base)

end ConnectForge
