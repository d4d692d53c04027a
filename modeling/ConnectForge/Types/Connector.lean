import ConnectForge.Types.Record

namespace ConnectForge

/-! Connector domain types. -/

inductive ConnectorKind where
  | source
  | sink
deriving Repr, DecidableEq

inductive DeliveryGuarantee where
  /-- The checkpoint advances only after a record is delivered or
  dead-lettered. -/
  | atLeastOnce
  /-- The checkpoint advances before delivery. -/
  | atMostOnce
deriving Repr, DecidableEq

/-- A durable position: the next offset a connector should read. -/
structure Checkpoint where
  connector : ConnectorId
  topic : TopicName
  partition : Nat
  offset : Nat
deriving DecidableEq

structure DeadLetterRecord where
  connector : ConnectorId
  topic : TopicName
  partition : Nat
  offset : Nat
  payload : Bytes
  reason : String
  attempts : Nat
  failedAt : DateTime
deriving DecidableEq

/-- The outcome of processing one batch through a sink runtime. -/
structure DeliveryReport where
  polled : Nat
  delivered : Nat
  deadLettered : Nat
  checkpoint : Nat
deriving Repr, DecidableEq

structure ConnectorStatus where
  id : ConnectorId
  kind : ConnectorKind
  guarantee : DeliveryGuarantee
  running : Bool
  processed : Nat
  deadLettered : Nat
  checkpoint : Nat
deriving DecidableEq

end ConnectForge
