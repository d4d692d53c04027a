import ConnectForge.Infra.FileStore
import ConnectForge.Infra.FileTree

namespace ConnectForge.Infra

open Data

/-! The file store in the directory tree it shares with everything else, from
the names of its directories to the scan that recovers it. -/

/-- What the store needs of `serde_json`: a configuration is read back as it was
written, and nothing is made of one that was cut short. -/
structure TopicJson where
  toVecPretty : TopicConfig → Bytes
  fromSlice : Bytes → Except String TopicConfig
  reads : ∀ config, fromSlice (toVecPretty config) = .ok config
  rejects : ∀ config written, written < (toVecPretty config).length →
    ∃ reason, fromSlice ((toVecPretty config).take written) = .error reason

structure PlacedPartition where
  dir : Pathname
  state : PartitionState
deriving DecidableEq

structure PlacedTopic where
  config : TopicConfig
  partitions : List PlacedPartition

structure Inner where
  root : Pathname
  topics : OrderedMap String PlacedTopic
  fetchedTotal : Nat
  producedTotal : Nat

def topicDir (root : Pathname) (name : String) : Pathname := root ++ [name]

def metaPath (root : Pathname) (name : String) : Pathname := topicDir root name ++ ["topic.json"]

def partitionDir (root : Pathname) (name : String) (partition : Nat) : Pathname :=
  topicDir root name ++ [toString partition]

inductive FileStep where
  | createDirAll (path : Pathname)
  | write (path : Pathname) (bytes : Bytes)

def FileStep.run (tree : FileTree) : FileStep → Except IoError FileTree
  | createDirAll path => tree.createDirAll path
  | write path bytes => tree.write path bytes

/-- Steps one after the other, up to the first that fails. -/
def perform : List FileStep → FileTree → Except IoError Unit × FileTree
  | [], tree => (.ok (), tree)
  | step :: rest, tree =>
      match step.run tree with
      | .error reason => (.error reason, tree)
      | .ok tree => perform rest tree

def partitionSteps (root : Pathname) (config : TopicConfig) : List FileStep :=
  (List.range config.partitions).map fun partition =>
    .createDirAll (partitionDir root config.name.asStr partition)

def createSteps (json : TopicJson) (root : Pathname) (config : TopicConfig) : List FileStep :=
  .createDirAll (topicDir root config.name.asStr) ::
  .write (metaPath root config.name.asStr) (json.toVecPretty config) ::
  partitionSteps root config

def freshPartitions (root : Pathname) (config : TopicConfig) : List PlacedPartition :=
  (List.range config.partitions).map fun partition =>
    { dir := partitionDir root config.name.asStr partition, state := .fresh }

namespace Inner

def createTopic (json : TopicJson) (inner : Inner) (config : TopicConfig) (tree : FileTree) :
    Except PortError Bool × Inner × FileTree :=
  match inner.topics.find? config.name.asStr with
  | some _ => (.ok false, inner, tree)
  | none =>
      match perform (createSteps json inner.root config) tree with
      | (.error reason, tree) => (.error (ioErr reason), inner, tree)
      | (.ok (), tree) =>
          let partitions := freshPartitions inner.root config
          (.ok true, { inner with
            topics := inner.topics.insert config.name.asStr { config, partitions } }, tree)

def append (inner : Inner) (topic : TopicName) (partition : Nat) (records : List ProduceRecord)
    (timestamp : DateTime) (tree : FileTree) :
    Option (Except PortError AppendOutcome × Inner × FileTree) :=
  match inner.topics.find? topic.asStr with
  | none => some (.error (.notFound topic.asStr), inner, tree)
  | some state =>
      match state.partitions[partition]? with
      | none => some (.error (noPartition topic partition), inner, tree)
      | some part =>
          match tree (resolve part.dir) with
          -- A store removes no directory, so this is not met.
          | none => some (.error (ioErr "No such file or directory (os error 2)"), inner, tree)
          | some dir =>
              match part.state.append state.config.retention records timestamp { dir, faults := [] } with
              | none => none
              | some (result, after, disk) =>
                  let partitions := state.partitions.set partition { part with state := after }
                  let topics := inner.topics.insert topic.asStr { state with partitions }
                  let tree := tree.put (resolve part.dir) disk.dir
                  match result with
                  | .error reason => some (.error reason, { inner with topics }, tree)
                  | .ok outcome => some (.ok outcome, { inner with
                      topics
                      producedTotal := inner.producedTotal + outcome.records.length }, tree)

def fetch (inner : Inner) (topic : TopicName) (partition start max : Nat) (tree : FileTree) :
    Except PortError FetchResult × Inner :=
  match inner.topics.find? topic.asStr with
  | none => (.error (.notFound topic.asStr), inner)
  | some state =>
      match state.partitions[partition]? with
      | none => (.error (noPartition topic partition), inner)
      | some part =>
          match part.state.fetch start max ((tree (resolve part.dir)).getD .empty) with
          | .error reason => (.error reason, inner)
          | .ok result =>
              (.ok result, { inner with fetchedTotal := inner.fetchedTotal + result.records.length })

def stats (inner : Inner) : LogStats where
  topics := inner.topics.entries.length
  partitions := (inner.topics.values.map fun topic => topic.partitions.length).sum
  records := (inner.topics.values.map fun topic =>
    (topic.partitions.map fun part => part.state.totalRecords).sum).sum
  segments := (inner.topics.values.map fun topic =>
    (topic.partitions.map fun part => part.state.segments.length).sum).sum
  producedTotal := inner.producedTotal
  fetchedTotal := inner.fetchedTotal

def handle (json : TopicJson) : (request : StoreCall) → Inner → FileTree →
    Option (request.Answer × Inner × FileTree)
  | .createTopic config, inner, tree => some (inner.createTopic json config tree)
  | .topics, inner, tree => some (.ok (inner.topics.values.map PlacedTopic.config), inner, tree)
  | .partitionCount topic, inner, tree =>
      some (.ok ((inner.topics.find? topic.asStr).map fun topic => topic.config.partitions), inner, tree)
  | .append topic partition records timestamp, inner, tree =>
      inner.append topic partition records timestamp tree
  | .fetch topic partition start max, inner, tree =>
      match inner.fetch topic partition start max tree with
      | (result, inner) => some (result, inner, tree)
  | .stats, inner, tree => some (.ok inner.stats, inner, tree)

/-! Opening a store. -/

/-- `recover_partition`, in the tree. -/
def recoverPartitionAt (listing : Pathname → List String) (dir : Pathname) (tree : FileTree) :
    Except PortError (PlacedPartition × FileTree) :=
  match tree.createDirAll dir with
  | .error reason => .error (ioErr reason)
  | .ok tree =>
      match recoverPartition (listing dir) ((tree (resolve dir)).getD .empty) with
      | .error reason => .error reason
      | .ok (state, contents) => .ok ({ dir, state }, tree.put (resolve dir) contents)

def recoverPartitions (listing : Pathname → List String) :
    List Pathname → FileTree → Except PortError (List PlacedPartition × FileTree)
  | [], tree => .ok ([], tree)
  | dir :: rest, tree =>
      match recoverPartitionAt listing dir tree with
      | .error reason => .error reason
      | .ok (part, tree) =>
          match recoverPartitions listing rest tree with
          | .error reason => .error reason
          | .ok (parts, tree) => .ok (part :: parts, tree)

/-- One entry of the root directory; those that are no topics are skipped. -/
def recoverTopic (json : TopicJson) (listing : Pathname → List String) (root : Pathname) (name : String)
    (tree : FileTree) : Except PortError (Option PlacedTopic × FileTree) :=
  if (tree (resolve (topicDir root name))).isNone then .ok (none, tree)
  else if !tree.exists? (metaPath root name) then .ok (none, tree)
  else
    match tree.read (metaPath root name) with
    | .error reason => .error (ioErr reason)
    | .ok bytes =>
        match json.fromSlice bytes with
        | .error reason => .error (.permanent reason)
        | .ok config =>
            match recoverPartitions listing
                ((List.range config.partitions).map (partitionDir root name)) tree with
            | .error reason => .error reason
            | .ok (partitions, tree) => .ok (some { config, partitions }, tree)

def recover (json : TopicJson) (listing : Pathname → List String) :
    List String → Inner → FileTree → Except PortError (Inner × FileTree)
  | [], inner, tree => .ok (inner, tree)
  | name :: rest, inner, tree =>
      match recoverTopic json listing inner.root name tree with
      | .error reason => .error reason
      | .ok (none, tree) => recover json listing rest inner tree
      | .ok (some topic, tree) =>
          recover json listing rest { inner with
            topics := inner.topics.insert topic.config.name.asStr topic } tree

/-- `FileLogStore::open`. -/
def «open» (json : TopicJson) (listing : Pathname → List String) (root : Pathname) (tree : FileTree) :
    Except PortError (Inner × FileTree) :=
  match tree.createDirAll root with
  | .error reason => .error (ioErr reason)
  | .ok tree =>
      recover json listing (listing root)
        { root, topics := .empty, fetchedTotal := 0, producedTotal := 0 } tree

end Inner

end ConnectForge.Infra
