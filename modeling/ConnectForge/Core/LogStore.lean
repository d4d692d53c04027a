import ConnectForge.Core.Error
import ConnectForge.Types.Record

namespace ConnectForge

/-! The durable-log port. -/

/-- A call of the `LogStore` trait. -/
inductive StoreCall where
  | createTopic (config : TopicConfig)
  | topics
  | partitionCount (topic : TopicName)
  | append (topic : TopicName) (partition : Nat) (records : List ProduceRecord)
      (timestamp : DateTime)
  | fetch (topic : TopicName) (partition start max : Nat)
  | stats
deriving DecidableEq

@[reducible] def StoreCall.Answer : StoreCall → Type
  | createTopic _ => Except PortError Bool
  | topics => Except PortError (List TopicConfig)
  | partitionCount _ => Except PortError (Option Nat)
  | append _ _ _ _ => Except PortError AppendOutcome
  | fetch _ _ _ _ => Except PortError FetchResult
  | stats => Except PortError LogStats

/-- The error for a partition a topic does not have. -/
def noPartition (topic : TopicName) (partition : Nat) : PortError :=
  .notFound (topic.asStr ++ "/" ++ partition.repr)

end ConnectForge
