import ConnectForge.Infra.Layout

namespace ConnectForge.Infra

open Data SegmentedLog

/-! Opening a store on a tree that was left by another one. -/

section Partitions

variable {root : Pathname} {name : String} {tree : FileTree} {listing : Pathname → List String}

theorem recoverPartitionAt_ok (descends : Descends name) (opened : Open tree (resolve root ++ [name]))
    {index : Nat} (free : tree.isFile (resolve root ++ [name] ++ [toString index]) = false)
    {log : SegmentedLog}
    (stored : ((tree (resolve root ++ [name] ++ [toString index])).getD .empty).files = log.files)
    (listed : (listing (partitionDir root name index)).Perm
      ((tree (resolve root ++ [name] ++ [toString index])).getD .empty).names) :
    Inner.recoverPartitionAt listing (partitionDir root name index) tree =
      .ok ({ dir := partitionDir root name index, state := log.partition },
        tree.ensure .empty [resolve root ++ [name] ++ [toString index]]) := by
  have target := resolve_partitionDir root descends index
  have present : tree.ensure Directory.empty [resolve root ++ [name] ++ [toString index]]
      (resolve root ++ [name] ++ [toString index]) =
        some ((tree (resolve root ++ [name] ++ [toString index])).getD .empty) :=
    PathTree.ensure_of_mem _ List.mem_cons_self
  generalize (tree (resolve root ++ [name] ++ [toString index])).getD .empty = dir at stored listed present
  have recovered := recover_torn log rfl (stored.trans (withTail_empty log.files).symm) listed
  rw [← stored] at recovered
  rw [Inner.recoverPartitionAt, createPartitionDir descends opened free]
  dsimp only
  rw [target, present, Option.getD_some, recovered]
  dsimp only
  rw [PathTree.put_eq present]

theorem recoverPartitions_ok (descends : Descends name) (logs : Nat → SegmentedLog) (indices : List Nat)
    (nodup : indices.Nodup) (opened : Open tree (resolve root ++ [name]))
    (free : ∀ index : Nat, tree.isFile (resolve root ++ [name] ++ [toString index]) = false)
    (stored : ∀ index ∈ indices,
      ((tree (resolve root ++ [name] ++ [toString index])).getD .empty).files = (logs index).files)
    (listed : ∀ index ∈ indices, (listing (partitionDir root name index)).Perm
      ((tree (resolve root ++ [name] ++ [toString index])).getD .empty).names) :
    Inner.recoverPartitions listing (indices.map (partitionDir root name)) tree =
      .ok (indices.map fun index =>
          { dir := partitionDir root name index, state := (logs index).partition },
        tree.ensure .empty (indices.map fun index => resolve root ++ [name] ++ [toString index])) := by
  induction indices generalizing tree with
  | nil => rfl
  | cons index rest ih =>
      obtain ⟨fresh, rest_nodup⟩ := List.nodup_cons.mp nodup
      have same := @ensure_above tree (resolve root ++ [name]) (toString index)
      have others : ∀ other ∈ rest, tree.ensure Directory.empty
          [resolve root ++ [name] ++ [toString index]] (resolve root ++ [name] ++ [toString other]) =
            tree (resolve root ++ [name] ++ [toString other]) := by
        intro other member
        refine PathTree.ensure_of_not_mem _ ?_
        simp only [List.mem_singleton, List.append_cancel_left_eq, List.cons.injEq, and_true]
        intro equal
        exact fresh (toString_injective equal ▸ member)
      have later := ih rest_nodup (opened.congr fun _ => same)
        (fun other => by
          rw [isFile_congr (fun _ => same) (by rw [List.dropLast_concat])]
          exact free other)
        (fun other member => by
          rw [others other member]
          exact stored other (List.mem_cons_of_mem _ member))
        (fun other member => by
          rw [others other member]
          exact listed other (List.mem_cons_of_mem _ member))
      rw [List.map_cons, Inner.recoverPartitions, recoverPartitionAt_ok descends opened (free index)
        (stored index List.mem_cons_self) (listed index List.mem_cons_self)]
      dsimp only
      rw [later, PathTree.ensure_append]
      rfl

end Partitions

section Topics

/-! One entry of the root directory, in a tree that others may have been
recovered from before. -/

variable {json : TopicJson} {listing : Pathname → List String} {root : Pathname} {name : String}
  {tree current : FileTree}

/-- Two trees that agree on an entry of the root, and above it. -/
def Agree (root : Pathname) (name : String) (tree current : FileTree) : Prop :=
  ∀ path, path <+: resolve root ∨ resolve root ++ [name] <+: path → current path = tree path

theorem Agree.refl (root : Pathname) (name : String) (tree : FileTree) : Agree root name tree tree :=
  fun _ _ => rfl

theorem Agree.here (agree : Agree root name tree current) :
    current (resolve root ++ [name]) = tree (resolve root ++ [name]) := agree _ (.inr List.prefix_rfl)

theorem Agree.above (agree : Agree root name tree current) {path : Pathname}
    (above : path <+: resolve root ++ [name]) : current path = tree path := by
  rcases List.prefix_concat_iff.mp above with rfl | higher
  · exact agree.here
  · exact agree path (.inl higher)

theorem Agree.isFile (agree : Agree root name tree current) (component : String) :
    current.isFile (resolve root ++ [name] ++ [component]) =
      tree.isFile (resolve root ++ [name] ++ [component]) :=
  isFile_congr (fun _ => agree.above) (by rw [List.dropLast_concat])

/-- A topic whose configuration can be read, with the logs its partitions
hold. -/
structure Readable (json : TopicJson) (listing : Pathname → List String) (root : Pathname) (config : TopicConfig)
    (logs : Nat → SegmentedLog) (tree : FileTree) : Prop where
  opened : Open tree (resolve root ++ [config.name.asStr])
  described : ∃ dir, tree (resolve root ++ [config.name.asStr]) = some dir ∧
    dir.files = [("topic.json", json.toVecPretty config)]
  plain : tree (resolve root ++ [config.name.asStr] ++ ["topic.json"]) = none
  stored : ∀ index < config.partitions,
    ((tree (resolve root ++ [config.name.asStr] ++ [toString index])).getD .empty).files =
      (logs index).files
  listed : ∀ index < config.partitions, (listing (partitionDir root config.name.asStr index)).Perm
    ((tree (resolve root ++ [config.name.asStr] ++ [toString index])).getD .empty).names

theorem Readable.congr {config : TopicConfig} {logs : Nat → SegmentedLog}
    (readable : Readable json listing root config logs tree)
    (agree : Agree root config.name.asStr tree current) :
    Readable json listing root config logs current where
  opened := readable.opened.congr fun _ => agree.above
  described := by
    rw [agree.here]
    exact readable.described
  plain := (agree _ (.inr (List.prefix_append _ _))).trans readable.plain
  stored index inside := by
    rw [agree _ (.inr (List.prefix_append _ _))]
    exact readable.stored index inside
  listed index inside := by
    rw [agree _ (.inr (List.prefix_append _ _))]
    exact readable.listed index inside

theorem isFile_topic {bytes : Bytes} {dir : Directory} (here : tree (resolve root ++ [name]) = some dir)
    (files : dir.files = [("topic.json", bytes)]) (component : String) :
    tree.file? (resolve root ++ [name] ++ [component]) =
      if component = "topic.json" then some bytes else none := by
  rw [FileTree.file?_concat, here, Option.bind_some, Directory.read?, files]
  by_cases same : component = "topic.json"
  · rw [if_pos same, same]
    rfl
  · have different : (component == "topic.json") = false := by simpa using same
    rw [if_neg same]
    simp only [List.lookup_cons, List.lookup_nil, different]

def recovered (root : Pathname) (config : TopicConfig) (logs : Nat → SegmentedLog) : PlacedTopic where
  config
  partitions := (List.range config.partitions).map fun index =>
    { dir := partitionDir root config.name.asStr index, state := (logs index).partition }

theorem recoverTopic_ok {config : TopicConfig} {logs : Nat → SegmentedLog}
    (descends : Descends config.name.asStr) (readable : Readable json listing root config logs tree) :
    Inner.recoverTopic json listing root config.name.asStr tree =
      .ok (some (recovered root config logs), tree.ensure .empty ((List.range config.partitions).map
        fun index => resolve root ++ [config.name.asStr] ++ [toString index])) := by
  obtain ⟨dir, here, files⟩ := readable.described
  have target := resolve_topicDir root descends
  have found : tree.file? (resolve root ++ [config.name.asStr] ++ ["topic.json"]) =
      some (json.toVecPretty config) := (isFile_topic here files _).trans (if_pos rfl)
  have metaTarget : resolve (metaPath root config.name.asStr) =
      resolve root ++ [config.name.asStr] ++ ["topic.json"] := by
    rw [metaPath, resolve_concat _ descends_meta, target]
  have seen : tree.exists? (metaPath root config.name.asStr) = true := by
    rw [FileTree.exists?, metaTarget, FileTree.isFile, found]
    exact Bool.or_true _
  have read : tree.read (metaPath root config.name.asStr) = .ok (json.toVecPretty config) := by
    simp only [FileTree.read, metaTarget, readable.plain, found, Option.isSome_none, Bool.false_eq_true,
      ↓reduceIte]
  have free : ∀ index : Nat,
      tree.isFile (resolve root ++ [config.name.asStr] ++ [toString index]) = false := by
    intro index
    rw [FileTree.isFile, isFile_topic here files, if_neg (toString_ne_meta index)]
    rfl
  have partitions := recoverPartitions_ok descends logs (List.range config.partitions) List.nodup_range
    readable.opened free (fun index member => readable.stored index (List.mem_range.mp member))
    (fun index member => readable.listed index (List.mem_range.mp member))
  simp only [Inner.recoverTopic, target, here, seen, read, json.reads, partitions, Option.isNone_some,
    Bool.not_true, Bool.false_eq_true, ↓reduceIte]
  rfl

/-- An entry of the root from which a topic or nothing is recovered, whatever was
recovered from the others before.  Only some directories below the entry are
added. -/
def Yields (json : TopicJson) (listing : Pathname → List String) (root : Pathname) (tree : FileTree)
    (name : String) (found : Option PlacedTopic) (adds : Pathname → Prop) : Prop :=
  (∀ topic, found = some topic → topic.config.name.asStr = name) ∧
  ∀ current, Agree root name tree current → ∃ after,
    Inner.recoverTopic json listing root name current = .ok (found, after) ∧
    Beyond root name current after ∧ ∀ path, ¬ adds path → after path = current path

def Missing (root : Pathname) (config : TopicConfig) (tree : FileTree) (path : Pathname) : Prop :=
  tree path = none ∧ ∃ index < config.partitions,
    path = resolve root ++ [config.name.asStr] ++ [toString index]

def Refuses (json : TopicJson) (listing : Pathname → List String) (root : Pathname) (tree : FileTree)
    (name : String) : Prop :=
  ∀ current, Agree root name tree current →
    ∃ reason, Inner.recoverTopic json listing root name current = .error reason

theorem Yields.mono {found : Option PlacedTopic} {adds more : Pathname → Prop}
    (yields : Yields json listing root tree name found adds) (wider : ∀ path, adds path → more path) :
    Yields json listing root tree name found more := by
  obtain ⟨named, reads⟩ := yields
  refine ⟨named, fun current agree => ?_⟩
  obtain ⟨after, recovers, beyond, kept⟩ := reads current agree
  exact ⟨after, recovers, beyond, fun path untouched => kept path fun added => untouched (wider path added)⟩

theorem Readable.yields {config : TopicConfig} {logs : Nat → SegmentedLog}
    (descends : Descends config.name.asStr) (readable : Readable json listing root config logs tree) :
    Yields json listing root tree config.name.asStr (some (recovered root config logs))
      (Missing root config tree) := by
  refine ⟨?_, ?_⟩
  · intro topic same
    cases same
    rfl
  · intro current agree
    refine ⟨_, recoverTopic_ok descends (readable.congr agree), ?_, ?_⟩
    · intro path outside
      refine PathTree.ensure_of_not_mem _ ?_
      intro member
      obtain ⟨index, _, rfl⟩ := List.mem_map.mp member
      exact outside (List.prefix_append _ _)
    · intro path untouched
      unfold PathTree.ensure
      split
      · rename_i member
        obtain ⟨index, inside, rfl⟩ := List.mem_map.mp member
        have same := agree _ (.inr (List.prefix_append _ [toString index]))
        cases here : tree (resolve root ++ [config.name.asStr] ++ [toString index]) with
        | none => exact absurd ⟨here, index, List.mem_range.mp inside, rfl⟩ untouched
        | some dir =>
            rw [same, here]
            rfl
      · rfl

theorem yields_nothing (descends : Descends name)
    (undescribed : tree (resolve root ++ [name]) = none ∨
      tree (resolve root ++ [name] ++ ["topic.json"]) = none ∧
        tree.isFile (resolve root ++ [name] ++ ["topic.json"]) = false) :
    Yields json listing root tree name none (fun _ => False) := by
  refine ⟨nofun, fun current agree => ⟨current, ?_, fun _ _ => rfl, fun _ _ => rfl⟩⟩
  have target := resolve_topicDir root descends
  rw [Inner.recoverTopic, target, agree.here]
  rcases undescribed with absent | ⟨noDir, noFile⟩
  · rw [absent]
    rfl
  · have unseen : current.exists? (metaPath root name) = false := by
      rw [FileTree.exists?, metaPath, resolve_concat _ descends_meta, target, agree.isFile, noFile,
        agree _ (.inr (List.prefix_append _ _)), noDir]
      rfl
    rw [unseen]
    split <;> rfl

theorem refuses_unparsed (descends : Descends name) {dir : Directory} {bytes : Bytes} {reason : String}
    (here : tree (resolve root ++ [name]) = some dir) (files : dir.files = [("topic.json", bytes)])
    (plain : tree (resolve root ++ [name] ++ ["topic.json"]) = none)
    (unparsed : json.fromSlice bytes = .error reason) : Refuses json listing root tree name := by
  intro current agree
  have target := resolve_topicDir root descends
  have hereNow : current (resolve root ++ [name]) = some dir := agree.here.trans here
  have plainNow : current (resolve root ++ [name] ++ ["topic.json"]) = none :=
    (agree _ (.inr (List.prefix_append _ _))).trans plain
  have found : current.file? (resolve root ++ [name] ++ ["topic.json"]) = some bytes :=
    (isFile_topic hereNow files _).trans (if_pos rfl)
  have metaTarget : resolve (metaPath root name) = resolve root ++ [name] ++ ["topic.json"] := by
    rw [metaPath, resolve_concat _ descends_meta, target]
  have seen : current.exists? (metaPath root name) = true := by
    rw [FileTree.exists?, metaTarget, FileTree.isFile, found]
    exact Bool.or_true _
  have read : current.read (metaPath root name) = .ok bytes := by
    simp only [FileTree.read, metaTarget, plainNow, found, Option.isSome_none, Bool.false_eq_true,
      ↓reduceIte]
  refine ⟨.permanent reason, ?_⟩
  simp only [Inner.recoverTopic, target, hereNow, seen, read, unparsed, Option.isNone_some, Bool.not_true,
    Bool.false_eq_true, ↓reduceIte]

end Topics

section Stores

/-! All entries of the root. -/

variable {json : TopicJson} {listing : Pathname → List String} {root : Pathname} {tree current : FileTree}

theorem Agree.later {name other : String} {after : FileTree} (agree : Agree root other tree current)
    (beyond : Beyond root name current after) (different : other ≠ name) :
    Agree root other tree after := by
  intro path either
  refine Eq.trans ?_ (agree path either)
  rcases either with above | under
  · exact beyond.above above
  · exact beyond.sibling different under

theorem recover_ok (found : String → Option PlacedTopic) (adds : String → Pathname → Prop)
    (names : List String) (nodup : names.Nodup)
    (yields : ∀ name ∈ names, Yields json listing root tree name (found name) (adds name))
    (agree : ∀ name ∈ names, Agree root name tree current) {inner : Inner} (rooted : inner.root = root) :
    ∃ after later, Inner.recover json listing names inner current = .ok (after, later) ∧
      after = { inner with topics := after.topics } ∧
      (∀ name, after.topics.find? name =
        if name ∈ names then (found name).or (inner.topics.find? name) else inner.topics.find? name) ∧
      ∀ path, (∀ name ∈ names, ¬ adds name path) → later path = current path := by
  induction names generalizing current inner with
  | nil => exact ⟨inner, current, rfl, rfl, fun _ => rfl, fun _ _ => rfl⟩
  | cons name rest ih =>
      obtain ⟨fresh, restNodup⟩ := List.nodup_cons.mp nodup
      obtain ⟨named, reads⟩ := yields name List.mem_cons_self
      obtain ⟨next, topic, beyond, kept⟩ := reads current (agree name List.mem_cons_self)
      have agreeNext : ∀ other ∈ rest, Agree root other tree next := by
        intro other member
        refine (agree other (List.mem_cons_of_mem _ member)).later beyond ?_
        rintro rfl
        exact fresh member
      have go := fun {inner} => @ih next restNodup
        (fun other member => yields other (List.mem_cons_of_mem _ member)) agreeNext inner
      have grows : ∀ {later : FileTree},
          (∀ path, (∀ other ∈ rest, ¬ adds other path) → later path = next path) →
          ∀ path, (∀ other ∈ name :: rest, ¬ adds other path) → later path = current path := by
        intro later keeps path untouched
        rw [keeps path fun other member => untouched other (List.mem_cons_of_mem _ member)]
        exact kept path (untouched name List.mem_cons_self)
      cases result : found name with
      | none =>
          rw [result, ← rooted] at topic
          obtain ⟨after, later, ran, rest', finds, keeps⟩ := go rooted
          refine ⟨after, later, ?_, rest', ?_, grows keeps⟩
          · rw [Inner.recover, topic]
            exact ran
          · intro other
            rw [finds]
            by_cases same : other = name
            · rw [same, if_neg fresh, if_pos List.mem_cons_self, result, Option.none_or]
            · simp [same]
      | some placed =>
          rw [result, ← rooted] at topic
          have key : placed.config.name.asStr = name := named placed result
          obtain ⟨after, later, ran, rest', finds, keeps⟩ := @go { inner with
            topics := inner.topics.insert placed.config.name.asStr placed } rooted
          refine ⟨after, later, ?_, rest', ?_, grows keeps⟩
          · rw [Inner.recover, topic]
            exact ran
          · intro other
            rw [finds]
            dsimp only
            rw [OrderedMap.find?_insert, key]
            by_cases same : other = name
            · rw [same, if_neg fresh, if_pos List.mem_cons_self, if_pos rfl, result, Option.some_or]
            · simp [same]

theorem recover_fails (names : List String) (nodup : names.Nodup)
    (either : ∀ name ∈ names,
      (∃ found adds, Yields json listing root tree name found adds) ∨ Refuses json listing root tree name)
    (agree : ∀ name ∈ names, Agree root name tree current) {broken : String} (member : broken ∈ names)
    (refuses : Refuses json listing root tree broken) {inner : Inner} (rooted : inner.root = root) :
    ∃ reason, Inner.recover json listing names inner current = .error reason := by
  induction names generalizing current inner with
  | nil => cases member
  | cons name rest ih =>
      obtain ⟨fresh, restNodup⟩ := List.nodup_cons.mp nodup
      have here := agree name List.mem_cons_self
      rw [Inner.recover]
      rcases either name List.mem_cons_self with ⟨found, _, named, reads⟩ | stops
      · obtain ⟨next, topic, beyond, _⟩ := reads current here
        rcases List.mem_cons.mp member with rfl | later
        · obtain ⟨reason, failed⟩ := refuses current here
          rw [topic] at failed
          cases failed
        rw [← rooted] at topic
        rw [topic]
        have agreeNext : ∀ other ∈ rest, Agree root other tree next := by
          intro other inRest
          refine (agree other (List.mem_cons_of_mem _ inRest)).later beyond ?_
          rintro rfl
          exact fresh inRest
        have go := fun {inner} => @ih next restNodup
          (fun other inRest => either other (List.mem_cons_of_mem _ inRest)) agreeNext later inner
        cases found with
        | none => exact go rooted
        | some placed => exact go rooted
      · obtain ⟨reason, failed⟩ := stops current here
        exact ⟨reason, by rw [rooted, failed]⟩

theorem Open.createDirAll (rooted : Open tree (resolve root)) : tree.createDirAll root = .ok tree := by
  rw [FileTree.createDirAll_ok (fun other above => (rooted other above).2)
    (fun other above _ => (rooted other above).1), PathTree.ensure_eq]
  intro path member
  rw [List.mem_singleton.mp member]
  exact (rooted _ List.prefix_rfl).1

theorem open_ok (rooted : Open tree (resolve root)) (lists : tree.Lists listing)
    (found : String → Option PlacedTopic) (adds : String → Pathname → Prop)
    (yields : ∀ name ∈ listing root, Yields json listing root tree name (found name) (adds name)) :
    ∃ after later, Inner.open json listing root tree = .ok (after, later) ∧
      after = { root, topics := after.topics, fetchedTotal := 0, producedTotal := 0 } ∧
      (∀ name, after.topics.find? name = if name ∈ listing root then found name else none) ∧
      ∀ path, (∀ name ∈ listing root, ¬ adds name path) → later path = tree path := by
  obtain ⟨after, later, ran, rest', finds, keeps⟩ := recover_ok found adds (listing root)
    (lists.nodup root) yields (fun name _ => Agree.refl root name tree)
    (show ({ root, topics := .empty, fetchedTotal := 0, producedTotal := 0 } : Inner).root = root from rfl)
  refine ⟨after, later, ?_, rest', ?_, keeps⟩
  · rw [Inner.open, rooted.createDirAll]
    exact ran
  · intro name
    rw [finds]
    split
    · exact Option.or_none
    · rfl

theorem open_fails (rooted : Open tree (resolve root)) (lists : tree.Lists listing)
    (either : ∀ name ∈ listing root,
      (∃ found adds, Yields json listing root tree name found adds) ∨ Refuses json listing root tree name)
    {broken : String} (member : broken ∈ listing root) (refuses : Refuses json listing root tree broken) :
    ∃ reason, Inner.open json listing root tree = .error reason := by
  rw [Inner.open, rooted.createDirAll]
  exact recover_fails (listing root) (lists.nodup root) either (fun name _ => Agree.refl root name tree)
    member refuses rfl

end Stores

section Left

/-! The tree of a store whose partitions are in step with their directories. -/

theorem files_nodup (log : SegmentedLog) : (log.files.map Prod.fst).Nodup := by
  rw [SegmentedLog.files, placedFiles, List.map_map]
  refine List.pairwise_map.mpr (log.places_ascending.imp ?_)
  intro left right smaller same
  have equal : left.1 = right.1 := logPath_injective same
  omega

theorem listing_perm {tree : FileTree} {listing : Pathname → List String} (lists : tree.Lists listing)
    {path : Pathname} (leaf : ∀ name, tree (resolve path ++ [name]) = none)
    (nodup : ((tree (resolve path)).getD .empty).names.Nodup) :
    (listing path).Perm ((tree (resolve path)).getD .empty).names := by
  refine (List.perm_ext_iff_of_nodup (lists.nodup path) nodup).mpr ?_
  intro name
  rw [lists.mem, FileTree.isFile, FileTree.file?_concat]
  cases tree (resolve path) with
  | none => simp [leaf, Directory.empty, Directory.names]
  | some dir => simp [leaf, dir.isSome_read?]

variable {json : TopicJson} {root : Pathname} {tree : FileTree} {topics : OrderedMap String TopicState}
  {listing : Pathname → List String}

theorem TopicDirs.plain {base : Pathname} {topic : TopicState} (dirs : TopicDirs json tree base topic) :
    tree (base ++ ["topic.json"]) = none ∧
      ∀ (index : Nat) (name : String), tree (base ++ [toString index] ++ [name]) = none := by
  refine ⟨?_, ?_⟩
  · by_contra present
    rcases dirs.only (List.prefix_append _ _) present with same | ⟨index, _, same⟩
    · simp at same
    · rw [List.append_cancel_left_eq] at same
      exact toString_ne_meta index (List.cons.inj same).1.symm
  · intro index name
    by_contra present
    rw [List.append_assoc] at present
    rcases dirs.only (List.prefix_append _ _) present with same | ⟨_, _, same⟩
    · simp at same
    · rw [List.append_cancel_left_eq] at same
      have lengths := congrArg List.length same
      simp at lengths

theorem TopicDirs.readable {topic : TopicState}
    (dirs : TopicDirs json tree (resolve root ++ [topic.config.name.asStr]) topic)
    (descends : Descends topic.config.name.asStr)
    (opened : Open tree (resolve root ++ [topic.config.name.asStr])) (lists : tree.Lists listing)
    (inStep : ∀ part ∈ topic.partitions, InStep part) :
    ∃ logs, Readable json listing root topic.config logs tree ∧
      recovered root topic.config logs = place root topic := by
  have represented : ∀ index : Nat, ∃ log, ∀ part, topic.partitions[index]? = some part → Represents part log := by
    intro index
    cases here : topic.partitions[index]? with
    | none => exact ⟨.empty, nofun⟩
    | some part =>
        obtain ⟨log, represents⟩ := inStep part (List.mem_of_getElem? here)
        refine ⟨log, ?_⟩
        intro other same
        cases same
        exact represents
  choose logs represents using represented
  have held : ∀ index < topic.config.partitions, ∃ part, topic.partitions[index]? = some part ∧
      tree (resolve root ++ [topic.config.name.asStr] ++ [toString index]) = some part.dir := by
    intro index inside
    rw [← dirs.counted] at inside
    exact ⟨_, List.getElem?_eq_getElem inside, dirs.partitions (List.getElem?_eq_getElem inside)⟩
  obtain ⟨plain, leaves⟩ := dirs.plain
  obtain ⟨dir, here, files⟩ := dirs.described
  refine ⟨logs, ⟨opened, ⟨dir, here, files⟩, plain, ?_, ?_⟩, ?_⟩
  · intro index inside
    obtain ⟨part, member, stored⟩ := held index inside
    rw [stored, Option.getD_some, (represents index part member).2]
  · intro index inside
    obtain ⟨part, member, stored⟩ := held index inside
    have target := resolve_partitionDir root descends index
    rw [← target]
    refine listing_perm lists (fun name => by rw [target]; exact leaves index name) ?_
    rw [target, stored, Option.getD_some, Directory.names, (represents index part member).2]
    exact files_nodup (logs index)
  · unfold recovered place
    congr 1
    apply List.ext_getElem?
    intro index
    rw [List.getElem?_map, List.getElem?_mapIdx, ← dirs.counted]
    by_cases inside : index < topic.partitions.length
    · rw [List.getElem?_range inside, List.getElem?_eq_getElem inside]
      have states := (represents index _ (List.getElem?_eq_getElem inside)).1
      rw [Option.map_some, Option.map_some, states]
    · rw [List.getElem?_eq_none (by simpa using inside), List.getElem?_eq_none (by omega)]
      rfl

theorem Layout.entry (layout : Layout json root tree topics) {name : String}
    (known : topics.find? name ≠ none) : tree (resolve root ++ [name]) ≠ none := by
  obtain ⟨topic, found⟩ := Option.ne_none_iff_exists'.mp known
  obtain ⟨_, _, dirs⟩ := layout.named found
  obtain ⟨_, described, _⟩ := dirs.described
  rw [described]
  exact nofun

theorem Layout.listed (layout : Layout json root tree topics) (lists : tree.Lists listing)
    (name : String) : name ∈ listing root ↔ topics.find? name ≠ none := by
  rw [lists.mem, layout.isFile_entry]
  constructor
  · rintro (present | none)
    · intro absent
      exact present (layout.only absent List.prefix_rfl)
    · cases none
  · intro known
    exact .inl (layout.entry known)

variable {inner : Inner} {store : FileLogStore}

theorem Laid.yields (laid : Laid json inner tree store) {name : String} {topic : TopicState}
    (found : store.topics.find? name = some topic) (inStep : ∀ part ∈ topic.partitions, InStep part)
    {current : FileTree} (opened : Open current (resolve inner.root ++ [name]))
    (same : ∀ path, resolve inner.root ++ [name] <+: path → current path = tree path)
    (lists : current.Lists listing) :
    Yields json listing inner.root current name (inner.topics.find? name) (fun _ => False) := by
  obtain ⟨rfl, descends, oldDirs⟩ := laid.layout.named found
  have dirs := oldDirs.congr same
  obtain ⟨logs, readable, placed⟩ := dirs.readable descends opened lists inStep
  obtain ⟨named, reads⟩ := readable.yields descends
  rw [laid.find?, found, Option.map_some, ← placed]
  refine ⟨named, fun other otherAgree => ?_⟩
  obtain ⟨after, recovers, beyond, kept⟩ := reads other otherAgree
  refine ⟨after, recovers, beyond, fun path _ => kept path ?_⟩
  -- No directory of a partition is missing.
  rintro ⟨absent, index, inside, rfl⟩
  rw [← dirs.counted] at inside
  rw [dirs.partitions (List.getElem?_eq_getElem inside)] at absent
  cases absent

/-- A store that is opened again is as it was, and so is its tree. -/
theorem Laid.reopens (laid : Laid json inner tree store)
    (inStep : ∀ {name topic}, store.topics.find? name = some topic →
      ∀ part ∈ topic.partitions, InStep part)
    (lists : tree.Lists listing) :
    Inner.open json listing inner.root tree =
      .ok ({ inner with fetchedTotal := 0, producedTotal := 0 }, tree) := by
  have yields : ∀ name ∈ listing inner.root, Yields json listing inner.root tree name
      (inner.topics.find? name) (fun _ => False) := by
    intro name member
    have known := (laid.layout.listed lists name).mp member
    obtain ⟨topic, found⟩ := Option.ne_none_iff_exists'.mp known
    exact laid.yields found (inStep found)
      (laid.layout.open_entry (fun _ _ => rfl) (laid.layout.entry known)) (fun _ _ => rfl) lists
  obtain ⟨after, later, opens, shape, finds, keeps⟩ :=
    open_ok laid.layout.rooted lists (fun name => inner.topics.find? name) _ yields
  have topics : after.topics = inner.topics := by
    apply OrderedMap.ext_find?
    intro name
    rw [finds]
    split
    · rfl
    · rename_i unlisted
      rw [laid.layout.listed lists name, not_not] at unlisted
      rw [laid.find?, unlisted]
      rfl
  have trees : later = tree := funext fun path => keeps path fun _ _ => not_false
  rw [opens, shape, topics, trees]

end Left

end ConnectForge.Infra
