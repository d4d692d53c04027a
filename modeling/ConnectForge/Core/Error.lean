import ConnectForge.Types.Units

namespace ConnectForge

/-- `Display` of a domain error. -/
def InvalidRecord.toText : InvalidRecord → String
  | .emptyPayload => "record payload must not be empty"
  | .payloadTooLarge size => "record payload of " ++ size.repr ++ " bytes exceeds the maximum"
  | .emptyTopicName => "topic name must not be empty"
  | .topicNameTooLong size => "topic name of " ++ size.repr ++ " bytes exceeds the maximum"
  | .invalidTopicChar => "topic name may only contain [A-Za-z0-9._-]"
  | .zeroPartitions => "a topic must have at least one partition"
  | .zeroSegmentSize => "segment roll size must be greater than zero"

/-- An error returned by a port (storage or event-sink adapter). -/
inductive PortError where
  | unavailable (reason : String)
  | notFound (reason : String)
  | transient (reason : String)
  | permanent (reason : String)
deriving Repr, DecidableEq

def PortError.isRetryable : PortError → Bool
  | .unavailable _ => true
  | .transient _ => true
  | .notFound _ => false
  | .permanent _ => false

/-- `Display` of a port error. -/
def PortError.toText : PortError → String
  | .unavailable reason => "dependency unavailable: " ++ reason
  | .notFound reason => "not found: " ++ reason
  | .transient reason => "transient failure: " ++ reason
  | .permanent reason => "permanent failure: " ++ reason

inductive CoreError where
  | invalid (reason : InvalidRecord)
  | rateLimited
  | emptyBatch
  | topicExists (topic : String)
  | topicNotFound (topic : String)
  | partitionOutOfRange (topic : String) (partition count : Nat)
  | capacityExceeded (maxTopics : Nat)
  | timeout
  | port (reason : PortError)
deriving Repr, DecidableEq

/-- `Display` of an engine error. -/
def CoreError.toText : CoreError → String
  | .invalid reason => reason.toText
  | .rateLimited => "produce rate limit exceeded"
  | .emptyBatch => "produce batch must contain at least one record"
  | .topicExists topic => "topic '" ++ topic ++ "' already exists"
  | .topicNotFound topic => "topic '" ++ topic ++ "' not found"
  | .partitionOutOfRange topic partition count =>
      "partition " ++ partition.repr ++ " out of range for topic '" ++ topic ++ "' with " ++
        count.repr ++ " partitions"
  | .capacityExceeded maxTopics => "topic capacity of " ++ maxTopics.repr ++ " reached"
  | .timeout => "storage operation timed out"
  | .port reason => reason.toText

end ConnectForge
