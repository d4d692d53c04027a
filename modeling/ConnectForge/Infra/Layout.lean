import ConnectForge.Infra.RootedStore
import ConnectForge.Infra.StoreRefinement

namespace ConnectForge.Infra

open Data

/-! Where the topics of a store lie in the tree, when none of them is called `.`
or `..`. -/

section Names

theorem toString_toList (index : Nat) : (toString index).toList = Nat.toDigits 10 index := by
  change (Nat.repr index).toList = _
  rw [Nat.repr_eq_ofList_toDigits, String.toList_ofList]

theorem toString_injective {left right : Nat} (same : toString left = toString right) : left = right := by
  have digits := congrArg String.toList same
  rw [toString_toList, toString_toList] at digits
  calc
    left = Nat.ofDigitChars 10 (Nat.toDigits 10 left) 0 := Nat.ofDigitChars_ten_toDigits.symm
    _ = right := by rw [digits, Nat.ofDigitChars_ten_toDigits]

theorem toString_ne {text : String} {char : Char} (index : Nat) (member : char ∈ text.toList)
    (other : char.isDigit = false) : toString index ≠ text := by
  rintro rfl
  rw [toString_toList] at member
  rw [Nat.isDigit_of_mem_toDigits (by decide) (by decide) member] at other
  cases other

theorem descends_toString (index : Nat) : Descends (toString index) :=
  ⟨toString_ne index (show '.' ∈ ".".toList by decide) (by decide),
    toString_ne index (show '.' ∈ "..".toList by decide) (by decide)⟩

theorem toString_ne_meta (index : Nat) : toString index ≠ "topic.json" :=
  toString_ne index (show 't' ∈ "topic.json".toList by decide) (by decide)

theorem descends_meta : Descends "topic.json" := by decide

end Names

section Directories

/-! A single topic. -/

variable (root : Pathname) {name : String}

theorem resolve_topicDir (descends : Descends name) :
    resolve (topicDir root name) = resolve root ++ [name] := resolve_concat root descends

theorem resolve_partitionDir (descends : Descends name) (index : Nat) :
    resolve (partitionDir root name index) = resolve root ++ [name] ++ [toString index] := by
  rw [partitionDir, resolve_concat _ (descends_toString index), resolve_topicDir root descends]

/-- A directory that can be reached and used for others. -/
def Open (tree : FileTree) (base : Pathname) : Prop :=
  ∀ path, path <+: base → tree path ≠ none ∧ tree.isFile path = false

section Agreement

variable {tree after : FileTree} {base : Pathname} (same : ∀ path, path <+: base → after path = tree path)

include same

theorem isFile_congr {path : Pathname} (above : path.dropLast <+: base) :
    after.isFile path = tree.isFile path := by
  rcases List.eq_nil_or_concat' path with rfl | ⟨front, last, rfl⟩
  · rfl
  · rw [List.dropLast_concat] at above
    rw [FileTree.isFile, FileTree.isFile, FileTree.file?_concat, FileTree.file?_concat, same front above]

theorem Open.congr (opened : Open tree base) : Open after base := by
  intro path above
  rw [same path above, isFile_congr same ((List.dropLast_prefix path).trans above)]
  exact opened path above

end Agreement

/-- What a topic has in the tree, in its directory and in those of its
partitions. -/
structure TopicDirs (json : TopicJson) (tree : FileTree) (base : Pathname) (topic : TopicState) : Prop where
  described : ∃ dir, tree base = some dir ∧
    dir.files = [("topic.json", json.toVecPretty topic.config)]
  counted : topic.partitions.length = topic.config.partitions
  partitions : ∀ {index : Nat} {part : StoredPartition}, topic.partitions[index]? = some part →
    tree (base ++ [toString index]) = some part.dir
  only : ∀ {path}, base <+: path → tree path ≠ none →
    path = base ∨ ∃ index < topic.config.partitions, path = base ++ [toString index]

theorem TopicDirs.congr {json : TopicJson} {tree after : FileTree} {base : Pathname} {topic : TopicState}
    (dirs : TopicDirs json tree base topic) (same : ∀ path, base <+: path → after path = tree path) :
    TopicDirs json after base topic where
  described := by
    rw [same base List.prefix_rfl]
    exact dirs.described
  counted := dirs.counted
  partitions found := (same _ (List.prefix_append _ _)).trans (dirs.partitions found)
  only := by
    intro path under present
    rw [same path under] at present
    exact dirs.only under present

end Directories

/-- The topics of a store in the tree, and nothing else below its root. -/
structure Layout (json : TopicJson) (root : Pathname) (tree : FileTree)
    (topics : OrderedMap String TopicState) : Prop where
  named : ∀ {name topic}, topics.find? name = some topic →
    topic.config.name.asStr = name ∧ Descends name ∧
      TopicDirs json tree (resolve root ++ [name]) topic
  rooted : Open tree (resolve root)
  bare : ∀ {dir}, tree (resolve root) = some dir → dir.files = []
  only : ∀ {name path}, topics.find? name = none → resolve root ++ [name] <+: path → tree path = none

section Frames

variable {json : TopicJson} {root : Pathname} {tree after : FileTree}
  {topics : OrderedMap String TopicState} {name : String}

/-- Two trees that differ only below one entry of the root. -/
def Beyond (root : Pathname) (name : String) (tree after : FileTree) : Prop :=
  ∀ path, ¬ resolve root ++ [name] <+: path → after path = tree path

theorem Beyond.above (beyond : Beyond root name tree after) {path : Pathname} (above : path <+: resolve root) :
    after path = tree path := by
  apply beyond
  intro under
  exact not_prefix_self _ _ (under.trans above)

theorem Beyond.sibling (beyond : Beyond root name tree after) {other : String} (different : other ≠ name)
    {path : Pathname} (under : resolve root ++ [other] <+: path) : after path = tree path :=
  beyond path fun too => different (prefix_siblings under too)

theorem Layout.update (layout : Layout json root tree topics) {topic : TopicState}
    (sameName : topic.config.name.asStr = name) (descends : Descends name)
    (dirs : TopicDirs json after (resolve root ++ [name]) topic) (beyond : Beyond root name tree after) :
    Layout json root after (topics.insert name topic) where
  named := by
    intro other state found
    rw [OrderedMap.find?_insert] at found
    by_cases same : other = name
    · rw [if_pos same] at found
      cases found
      rw [same]
      exact ⟨sameName, descends, dirs⟩
    · rw [if_neg same] at found
      obtain ⟨sameOther, otherDescends, otherDirs⟩ := layout.named found
      exact ⟨sameOther, otherDescends, otherDirs.congr fun path under => beyond.sibling same under⟩
  rooted := layout.rooted.congr fun _ above => beyond.above above
  bare := by
    intro dir here
    rw [beyond.above List.prefix_rfl] at here
    exact layout.bare here
  only := by
    intro other path absent under
    rw [OrderedMap.find?_insert] at absent
    by_cases same : other = name
    · rw [if_pos same] at absent
      cases absent
    · rw [if_neg same] at absent
      rw [beyond.sibling same under]
      exact layout.only absent under

theorem Layout.isFile_entry (layout : Layout json root tree topics) (name : String) :
    tree.isFile (resolve root ++ [name]) = false := by
  obtain ⟨dir, here⟩ := Option.ne_none_iff_exists'.mp (layout.rooted _ List.prefix_rfl).1
  rw [FileTree.isFile, FileTree.file?_concat, here, Option.bind_some, Directory.read?, layout.bare here]
  rfl

theorem Beyond.put (tree : FileTree) {path : Pathname} (under : resolve root ++ [name] <+: path)
    (dir : Directory) : Beyond root name tree (tree.put path dir) := by
  intro other outside
  rw [PathTree.put_other]
  rintro rfl
  exact outside under

theorem Layout.open_entry (layout : Layout json root tree topics)
    (same : ∀ path, path <+: resolve root → after path = tree path)
    (present : after (resolve root ++ [name]) ≠ none) : Open after (resolve root ++ [name]) := by
  have rooted : Open after (resolve root) := layout.rooted.congr same
  intro path under
  rcases List.prefix_concat_iff.mp under with rfl | above
  · exact ⟨present, by rw [isFile_congr same (by rw [List.dropLast_concat]), layout.isFile_entry]⟩
  · exact rooted path above

end Frames

section Creating

/-! The steps that create a topic. -/

variable {json : TopicJson} {root : Pathname} {tree : FileTree} {topics : OrderedMap String TopicState}
  {name : String}

theorem Layout.createDir (layout : Layout json root tree topics) (descends : Descends name)
    (new : topics.find? name = none) :
    tree.createDirAll (topicDir root name) = .ok (tree.put (resolve root ++ [name]) .empty) := by
  have target := resolve_topicDir root descends
  rw [FileTree.createDirAll_ok, target, PathTree.ensure_new Directory.empty (layout.only new List.prefix_rfl)]
  · intro other under
    rw [target] at under
    rcases List.prefix_concat_iff.mp under with rfl | above
    · exact layout.isFile_entry name
    · exact (layout.rooted other above).2
  · intro other under different
    rw [target] at under different
    rcases List.prefix_concat_iff.mp under with same | above
    · exact absurd same different
    · exact (layout.rooted other above).1

theorem Layout.writeMeta (layout : Layout json root tree topics) (descends : Descends name)
    (new : topics.find? name = none) (bytes : Bytes) :
    FileTree.write (tree.put (resolve root ++ [name]) .empty) (metaPath root name) bytes =
      .ok (tree.put (resolve root ++ [name]) ⟨[("topic.json", bytes)], []⟩) := by
  have target := resolve_topicDir root descends
  have absent : (tree.put (resolve root ++ [name]) .empty) (resolve root ++ [name] ++ ["topic.json"]) =
      none := by
    rw [PathTree.put_other tree (by simp)]
    exact layout.only new (List.prefix_append _ _)
  rw [metaPath, FileTree.write_ok descends_meta (by rw [target, PathTree.put_self])
    (by rw [target]; exact absent), target, PathTree.put_put]
  rfl

theorem createPartitionDir (descends : Descends name) (opened : Open tree (resolve root ++ [name]))
    {index : Nat} (free : tree.isFile (resolve root ++ [name] ++ [toString index]) = false) :
    tree.createDirAll (partitionDir root name index) =
      .ok (tree.ensure .empty [resolve root ++ [name] ++ [toString index]]) := by
  have target := resolve_partitionDir root descends index
  rw [FileTree.createDirAll_ok, target]
  · intro other under
    rw [target] at under
    rcases List.prefix_concat_iff.mp under with rfl | above
    · exact free
    · exact (opened other above).2
  · intro other under different
    rw [target] at under different
    rcases List.prefix_concat_iff.mp under with same | above
    · exact absurd same different
    · exact (opened other above).1

theorem ensure_above (tree : FileTree) {base : Pathname} (component : String) {path : Pathname}
    (above : path <+: base) : tree.ensure Directory.empty [base ++ [component]] path = tree path := by
  refine PathTree.ensure_of_not_mem Directory.empty ?_
  rw [List.mem_singleton]
  rintro rfl
  exact not_prefix_self _ _ above

theorem perform_partitions (descends : Descends name) (indices : List Nat)
    (opened : Open tree (resolve root ++ [name]))
    (free : ∀ index : Nat, tree.isFile (resolve root ++ [name] ++ [toString index]) = false) :
    perform (indices.map fun index => .createDirAll (partitionDir root name index)) tree =
      (.ok (), tree.ensure .empty (indices.map fun index => resolve root ++ [name] ++ [toString index])) := by
  induction indices generalizing tree with
  | nil => rfl
  | cons index rest ih =>
      have same := @ensure_above tree (resolve root ++ [name]) (toString index)
      have later := ih (opened.congr fun _ => same) fun other => by
        rw [isFile_congr (fun _ => same) (by rw [List.dropLast_concat])]
        exact free other
      rw [List.map_cons, perform, FileStep.run, createPartitionDir descends opened (free index)]
      dsimp only
      rw [later, PathTree.ensure_append]
      rfl

/-- The tree with the description of a new topic, and with the directories of
some of its partitions. -/
def described (root : Pathname) (name : String) (bytes : Bytes) (indices : List Nat) (tree : FileTree) :
    FileTree :=
  (tree.put (resolve root ++ [name]) ⟨[("topic.json", bytes)], []⟩).ensure .empty
    (indices.map fun index => resolve root ++ [name] ++ [toString index])

theorem beyond_described (root : Pathname) (name : String) (bytes : Bytes) (indices : List Nat)
    (tree : FileTree) : Beyond root name tree (described root name bytes indices tree) := by
  intro path outside
  rw [described, PathTree.ensure_of_not_mem, PathTree.put_other]
  · rintro rfl
    exact outside List.prefix_rfl
  · intro member
    obtain ⟨index, _, rfl⟩ := List.mem_map.mp member
    exact outside (List.prefix_append _ _)

theorem described_here (root : Pathname) (name : String) (bytes : Bytes) (indices : List Nat)
    (tree : FileTree) : described root name bytes indices tree (resolve root ++ [name]) =
      some ⟨[("topic.json", bytes)], []⟩ := by
  rw [described, PathTree.ensure_of_not_mem, PathTree.put_self]
  intro member
  obtain ⟨index, _, same⟩ := List.mem_map.mp member
  simp at same

section Described

variable (layout : Layout json root tree topics) (new : topics.find? name = none)

include layout new

theorem Layout.described_below (bytes : Bytes) (indices : List Nat) {rest : Pathname} (deeper : rest ≠ []) :
    described root name bytes indices tree (resolve root ++ [name] ++ rest) =
      if ∃ index ∈ indices, rest = [toString index] then some .empty else none := by
  have absent : tree.put (resolve root ++ [name]) ⟨[("topic.json", bytes)], []⟩
      (resolve root ++ [name] ++ rest) = none := by
    rw [PathTree.put_other _ (by simpa using deeper)]
    exact layout.only new (List.prefix_append _ _)
  split
  · rename_i made
    obtain ⟨index, member, rfl⟩ := made
    rw [described, PathTree.ensure_of_mem _ (List.mem_map.mpr ⟨index, member, rfl⟩), absent]
    rfl
  · rename_i missing
    rw [described, PathTree.ensure_of_not_mem, absent]
    intro member
    obtain ⟨index, inside, same⟩ := List.mem_map.mp member
    exact missing ⟨index, inside, (List.append_cancel_left same).symm⟩

theorem Layout.perform_described (descends : Descends name) (bytes : Bytes) (indices : List Nat) :
    perform (.createDirAll (topicDir root name) :: .write (metaPath root name) bytes ::
      indices.map fun index => .createDirAll (partitionDir root name index)) tree =
        (.ok (), described root name bytes indices tree) := by
  have opened : Open (tree.put (resolve root ++ [name]) ⟨[("topic.json", bytes)], []⟩)
      (resolve root ++ [name]) :=
    layout.open_entry (fun _ above => (Beyond.put tree List.prefix_rfl _).above above)
      (by rw [PathTree.put_self]; exact nofun)
  rw [perform, FileStep.run, layout.createDir descends new]
  dsimp only
  rw [perform, FileStep.run, layout.writeMeta descends new]
  dsimp only
  rw [perform_partitions descends _ opened]
  · rfl
  · intro index
    rw [FileTree.isFile, FileTree.file?_concat, PathTree.put_self, Option.bind_some]
    have different : (toString index == "topic.json") = false := by
      simpa using toString_ne_meta index
    simp only [Directory.read?, List.lookup_cons, List.lookup_nil, different, Option.isSome_none]

end Described

def created (json : TopicJson) (root : Pathname) (config : TopicConfig) (tree : FileTree) : FileTree :=
  described root config.name.asStr (json.toVecPretty config) (List.range config.partitions) tree

section Created

variable {config : TopicConfig} (layout : Layout json root tree topics)
  (new : topics.find? config.name.asStr = none)

include layout new

theorem Layout.perform_create (descends : Descends config.name.asStr) :
    perform (createSteps json root config) tree = (.ok (), created json root config tree) :=
  layout.perform_described new descends (json.toVecPretty config) (List.range config.partitions)

theorem Layout.dirs_created : TopicDirs json (created json root config tree)
    (resolve root ++ [config.name.asStr])
    { config, partitions := List.replicate config.partitions ⟨.fresh, .empty⟩ } where
  described := ⟨_, described_here _ _ _ _ _, rfl⟩
  counted := List.length_replicate
  partitions := by
    intro index part found
    rw [List.getElem?_replicate] at found
    split at found
    · rename_i inside
      cases found
      rw [created, layout.described_below new _ _ (by simp),
        if_pos ⟨index, List.mem_range.mpr inside, rfl⟩]
    · cases found
  only := by
    rintro path ⟨rest, rfl⟩ present
    by_cases here : rest = []
    · rw [here, List.append_nil]
      exact .inl rfl
    · rw [created, layout.described_below new _ _ here] at present
      split at present
      · rename_i made
        obtain ⟨index, inside, rfl⟩ := made
        exact .inr ⟨index, List.mem_range.mp inside, rfl⟩
      · exact absurd rfl present

end Created

end Creating

section Refinement

/-! A store with proper names behaves as if each of its partitions owned its
directory. -/

/-- A topic with the paths of its partitions in the place of their files. -/
def place (root : Pathname) (topic : TopicState) : PlacedTopic where
  config := topic.config
  partitions := topic.partitions.mapIdx fun index part =>
    { dir := partitionDir root topic.config.name.asStr index, state := part.state }

@[simp] theorem place_config (root : Pathname) (topic : TopicState) :
    (place root topic).config = topic.config := rfl

theorem place_set (root : Pathname) (topic : TopicState) (index : Nat) (part : StoredPartition) :
    place root { topic with partitions := topic.partitions.set index part } =
      { place root topic with
        partitions := (place root topic).partitions.set index
          { dir := partitionDir root topic.config.name.asStr index, state := part.state } } := by
  unfold place
  rw [List.mapIdx_set]

theorem place_states (root : Pathname) (topic : TopicState) :
    (place root topic).partitions.map PlacedPartition.state =
      topic.partitions.map StoredPartition.state := by
  apply List.ext_getElem?
  intro index
  simp [place, Function.comp_def]

theorem place_fresh (root : Pathname) (config : TopicConfig) :
    place root { config, partitions := List.replicate config.partitions ⟨.fresh, .empty⟩ } =
      { config, partitions := freshPartitions root config } := by
  unfold place freshPartitions
  congr 1
  apply List.ext_getElem?
  intro index
  rw [List.getElem?_mapIdx, List.getElem?_replicate, List.getElem?_map]
  by_cases inside : index < config.partitions
  · rw [if_pos inside, List.getElem?_range inside]
    rfl
  · rw [if_neg inside, List.getElem?_eq_none (by simpa using inside)]
    rfl

/-- A store in its tree, and the same store with directories of its own. -/
structure Laid (json : TopicJson) (inner : Inner) (tree : FileTree) (store : FileLogStore) : Prop where
  topics : inner.topics.Related (fun placed stored => placed = place inner.root stored) store.topics
  fetched : inner.fetchedTotal = store.fetchedTotal
  produced : inner.producedTotal = store.producedTotal
  layout : Layout json inner.root tree store.topics

variable {json : TopicJson} {inner after : Inner} {tree later : FileTree} {store : FileLogStore}

theorem Laid.find? (laid : Laid json inner tree store) (name : String) :
    inner.topics.find? name = (store.topics.find? name).map (place inner.root) := by
  rcases laid.topics.find? name with ⟨here, there⟩ | ⟨_, _, here, there, rfl⟩
  · rw [here, there]
    rfl
  · rw [here, there]
    rfl

theorem Laid.creates (laid : Laid json inner tree store) {config : TopicConfig}
    (new : store.topics.find? config.name.asStr = none) (descends : Descends config.name.asStr) :
    inner.createTopic json config tree = (.ok true, { inner with
      topics := inner.topics.insert config.name.asStr
        { config, partitions := freshPartitions inner.root config } },
      created json inner.root config tree) := by
  simp only [Inner.createTopic, laid.find?, new, Option.map_none,
    laid.layout.perform_create new descends]

theorem Laid.createTopic (laid : Laid json inner tree store) {config : TopicConfig}
    (descends : Descends config.name.asStr) {answer : Except PortError Bool}
    (called : inner.createTopic json config tree = (answer, after, later)) :
    after.root = inner.root ∧ ∃ store', store.createTopic config [] = (answer, store') ∧
      Laid json after later store' := by
  unfold FileLogStore.createTopic
  cases found : store.topics.find? config.name.asStr with
  | some topic =>
      rw [Inner.createTopic, laid.find?, found] at called
      cases called
      exact ⟨rfl, store, rfl, laid⟩
  | none =>
      rw [laid.creates found descends] at called
      cases called
      refine ⟨rfl, ?_⟩
      simp only [FileLogStore.performs_quiet]
      refine ⟨_, rfl, laid.topics.insert _ (place_fresh inner.root config).symm, laid.fetched,
        laid.produced, ?_⟩
      exact laid.layout.update rfl descends (laid.layout.dirs_created found)
        (beyond_described _ _ _ _ tree)

theorem TopicDirs.set {base : Pathname} {topic : TopicState} (dirs : TopicDirs json tree base topic)
    {index : Nat} {part : StoredPartition} (here : topic.partitions[index]? = some part)
    (changed : StoredPartition) :
    TopicDirs json (tree.put (base ++ [toString index]) changed.dir) base
      { topic with partitions := topic.partitions.set index changed } where
  described := by
    obtain ⟨dir, found, files⟩ := dirs.described
    exact ⟨dir, (PathTree.put_other _ (by simp) _).trans found, files⟩
  counted := by
    rw [List.length_set]
    exact dirs.counted
  partitions := by
    intro other part' found
    by_cases same : other = index
    · subst same
      have bound := (List.getElem?_eq_some_iff.mp here).1
      rw [List.getElem?_set_self bound] at found
      cases found
      rw [PathTree.put_self]
    · rw [List.getElem?_set_ne (Ne.symm same)] at found
      rw [PathTree.put_other, dirs.partitions found]
      simpa using fun equal => same (toString_injective equal)
  only := by
    intro path under present
    by_cases same : path = base ++ [toString index]
    · have bound := (List.getElem?_eq_some_iff.mp here).1
      exact .inr ⟨index, dirs.counted ▸ bound, same⟩
    · rw [PathTree.put_other _ same] at present
      exact dirs.only under present

theorem Laid.part? (laid : Laid json inner tree store) {name : String} {topic : TopicState}
    (found : store.topics.find? name = some topic) (index : Nat) :
    (place inner.root topic).partitions[index]? = topic.partitions[index]?.map fun part =>
      { dir := partitionDir inner.root name index, state := part.state } := by
  obtain ⟨rfl, _⟩ := laid.layout.named found
  simp [place]

theorem Laid.partition_dir (laid : Laid json inner tree store) {name : String} {topic : TopicState}
    (found : store.topics.find? name = some topic) {index : Nat} {part : StoredPartition}
    (here : topic.partitions[index]? = some part) :
    resolve (partitionDir inner.root name index) = resolve inner.root ++ [name] ++ [toString index] ∧
      tree (resolve (partitionDir inner.root name index)) = some part.dir := by
  obtain ⟨_, descends, dirs⟩ := laid.layout.named found
  have target := resolve_partitionDir inner.root descends index
  exact ⟨target, by rw [target]; exact dirs.partitions here⟩

theorem Laid.append (laid : Laid json inner tree store) {topic : TopicName} {partition : Nat}
    {records : List ProduceRecord} {timestamp : DateTime} {answer : Except PortError AppendOutcome}
    (called : inner.append topic partition records timestamp tree = some (answer, after, later)) :
    after.root = inner.root ∧ ∃ store', store.append topic partition records timestamp [] =
      some (answer, store') ∧ Laid json after later store' := by
  unfold Inner.append at called
  unfold FileLogStore.append
  rw [laid.find?] at called
  cases found : store.topics.find? topic.asStr with
  | none =>
      rw [found] at called
      cases called
      exact ⟨rfl, store, rfl, laid⟩
  | some state =>
      rw [found] at called
      simp only [Option.map_some, laid.part? found] at called
      cases here : state.partitions[partition]? with
      | none =>
          rw [here] at called
          cases called
          exact ⟨rfl, store, by simp only [here], laid⟩
      | some part =>
          obtain ⟨target, present⟩ := laid.partition_dir found here
          rw [here] at called
          simp only [Option.map_some, present, place_config] at called
          simp only [here]
          cases appended : part.state.append state.config.retention records timestamp
              { dir := part.dir, faults := [] } with
          | none =>
              rw [appended] at called
              cases called
          | some value =>
              obtain ⟨result, part', disk⟩ := value
              rw [appended] at called
              obtain ⟨named, descends, dirs⟩ := laid.layout.named found
              have topics := laid.topics.insert topic.asStr
                (place_set inner.root state partition ⟨part', disk.dir⟩).symm
              rw [named] at topics
              have layout : Layout json inner.root
                  (tree.put (resolve inner.root ++ [topic.asStr] ++ [toString partition]) disk.dir)
                  (store.topics.insert topic.asStr { state with
                    partitions := state.partitions.set partition ⟨part', disk.dir⟩ }) :=
                laid.layout.update named descends (dirs.set here ⟨part', disk.dir⟩)
                  (.put tree (List.prefix_append _ _) disk.dir)
              rw [target] at called
              cases result with
              | error reason =>
                  cases called
                  exact ⟨rfl, _, rfl, topics, laid.fetched, laid.produced, layout⟩
              | ok outcome =>
                  cases called
                  exact ⟨rfl, _, rfl, topics, laid.fetched, by rw [laid.produced], layout⟩

/-- The append of a partition is one of the store. -/
theorem Laid.appends (laid : Laid json inner tree store) {topic : TopicName} {partition : Nat}
    {state : TopicState} (found : store.topics.find? topic.asStr = some state) {part : StoredPartition}
    (here : state.partitions[partition]? = some part) {records : List ProduceRecord} {timestamp : DateTime}
    {outcome : AppendOutcome} {part' : PartitionState} {disk : Disk}
    (appended : part.state.append state.config.retention records timestamp { dir := part.dir, faults := [] } =
      some (.ok outcome, part', disk)) :
    ∃ after, inner.append topic partition records timestamp tree = some (.ok outcome, after,
        tree.put (resolve (partitionDir inner.root topic.asStr partition)) disk.dir) ∧
      ∃ store', store.append topic partition records timestamp [] = some (.ok outcome, store') ∧
        ∀ name, store'.topics.find? name = if name = topic.asStr then
            some { state with partitions := state.partitions.set partition ⟨part', disk.dir⟩ }
          else store.topics.find? name := by
  obtain ⟨_, present⟩ := laid.partition_dir found here
  have called : ∃ after, inner.append topic partition records timestamp tree = some (.ok outcome, after,
      tree.put (resolve (partitionDir inner.root topic.asStr partition)) disk.dir) := by
    unfold Inner.append
    simp only [laid.find?, found, Option.map_some, laid.part? found, here, present, place_config, appended]
    exact ⟨_, rfl⟩
  obtain ⟨after, called⟩ := called
  refine ⟨after, called, ?_⟩
  unfold FileLogStore.append
  simp only [found, here, appended]
  exact ⟨_, rfl, fun name => OrderedMap.find?_insert _ _ name _⟩

theorem Laid.fetch (laid : Laid json inner tree store) (topic : TopicName) (partition start max : Nat) :
    (inner.fetch topic partition start max tree).2.root = inner.root ∧
      (inner.fetch topic partition start max tree).1 = (store.fetch topic partition start max).1 ∧
      Laid json (inner.fetch topic partition start max tree).2 tree
        (store.fetch topic partition start max).2 := by
  unfold Inner.fetch FileLogStore.fetch
  rw [laid.find?]
  cases found : store.topics.find? topic.asStr with
  | none => exact ⟨rfl, rfl, laid⟩
  | some state =>
      simp only [Option.map_some, laid.part? found]
      cases here : state.partitions[partition]? with
      | none => exact ⟨rfl, rfl, laid⟩
      | some part =>
          obtain ⟨_, present⟩ := laid.partition_dir found here
          simp only [Option.map_some, present, Option.getD_some]
          cases part.state.fetch start max part.dir with
          | error reason => exact ⟨rfl, rfl, laid⟩
          | ok result =>
              refine ⟨rfl, rfl, laid.topics, ?_, laid.produced, laid.layout⟩
              dsimp only
              rw [laid.fetched]

theorem Laid.stats (laid : Laid json inner tree store) : inner.stats = store.stats := by
  have sums : ∀ count : PartitionState → Nat,
      (inner.topics.values.map fun topic => (topic.partitions.map fun part => count part.state).sum) =
        store.topics.values.map fun topic => (topic.partitions.map fun part => count part.state).sum := by
    intro count
    refine laid.topics.map_values ?_
    rintro _ stored rfl
    have states := congrArg (List.map count) (place_states inner.root stored)
    rw [List.map_map, List.map_map] at states
    exact congrArg List.sum states
  have lengths : (inner.topics.values.map fun topic => topic.partitions.length) =
      store.topics.values.map fun topic => topic.partitions.length := by
    refine laid.topics.map_values ?_
    rintro _ stored rfl
    exact List.length_mapIdx
  unfold Inner.stats FileLogStore.stats
  rw [laid.topics.length_eq, laid.fetched, laid.produced, lengths, sums PartitionState.totalRecords,
    sums fun state => state.segments.length]

/-- Every call has the answer it has for a store with directories of its own. -/
theorem Laid.step (laid : Laid json inner tree store) {request : StoreCall} {answer : request.Answer}
    (named : Named request) (called : inner.handle json request tree = some (answer, after, later)) :
    after.root = inner.root ∧ ∃ store', store.handle [] request = some (answer, store') ∧
      Laid json after later store' := by
  cases request with
  | createTopic config =>
      obtain ⟨root, store', created, laid'⟩ := laid.createTopic named (Option.some.inj called)
      exact ⟨root, store', congrArg some created, laid'⟩
  | topics =>
      cases called
      have configs : store.topics.values.map TopicState.config =
          inner.topics.values.map PlacedTopic.config := by
        refine (laid.topics.map_values ?_).symm
        rintro _ stored rfl
        rfl
      exact ⟨rfl, store, by rw [FileLogStore.handle, configs], laid⟩
  | partitionCount topic =>
      cases called
      refine ⟨rfl, store, ?_, laid⟩
      rw [FileLogStore.handle, laid.find?, Option.map_map]
      rfl
  | append topic partition records timestamp => exact laid.append called
  | fetch topic partition start max =>
      obtain ⟨root, same, laid'⟩ := laid.fetch topic partition start max
      simp only [Inner.handle] at called
      generalize inner.fetch topic partition start max tree = outcome at called root same laid'
      obtain ⟨result, fetched⟩ := outcome
      cases called
      exact ⟨root, _, congrArg some (Prod.ext same.symm rfl), laid'⟩
  | stats =>
      cases called
      exact ⟨rfl, store, by rw [FileLogStore.handle, laid.stats], laid⟩

end Refinement

end ConnectForge.Infra
