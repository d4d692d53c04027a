import ConnectForge.Infra.TopicDirectories

namespace ConnectForge.Infra

open Data

/-! A crash while a topic is created. -/

/-- Before one of the steps, or after the last; or inside the write of the
description, once the file is there and some of its bytes. -/
inductive CrashPoint where
  | before (step : Nat)
  | writing (written : Nat)

def crashed (json : TopicJson) (root : Pathname) (config : TopicConfig) (tree : FileTree) :
    CrashPoint → FileTree
  | .before step => (perform ((createSteps json root config).take step) tree).2
  | .writing written =>
      (perform [.createDirAll (topicDir root config.name.asStr),
        .write (metaPath root config.name.asStr) ((json.toVecPretty config).take written)] tree).2

/-- The description is not there yet, or all of it is. -/
def CrashPoint.Whole (json : TopicJson) (config : TopicConfig) (point : CrashPoint) : Prop :=
  ∀ written, point = .writing written → (json.toVecPretty config).length ≤ written

/-- What a store has to show that was opened after the crash: the topics there
were, each with its files, and the new one as requested or not at all. -/
structure Survives (inner : Inner) (tree : FileTree) (config : TopicConfig) (after : Inner)
    (later : FileTree) : Prop where
  topics : ∀ name, name ≠ config.name.asStr → after.topics.find? name = inner.topics.find? name
  files : ∀ {name topic}, inner.topics.find? name = some topic → ∀ part ∈ topic.partitions,
    later (resolve part.dir) = tree (resolve part.dir)
  new : after.topics.find? config.name.asStr = none ∨ after.topics.find? config.name.asStr =
    some { config, partitions := freshPartitions inner.root config }

variable {json : TopicJson} {root : Pathname} {tree : FileTree} {topics : OrderedMap String TopicState}
  {config : TopicConfig}

theorem Layout.listed_new (layout : Layout json root tree topics) {left : FileTree}
    (beyond : Beyond root config.name.asStr tree left) {listing : Pathname → List String} (lists : left.Lists listing) {name : String}
    (member : name ∈ listing root) (unknown : topics.find? name = none) : name = config.name.asStr := by
  by_contra different
  have above : ∀ path, path <+: resolve root → left path = tree path := fun _ => beyond.above
  rcases (lists.mem root name).mp member with directory | file
  · rw [beyond.sibling different List.prefix_rfl] at directory
    exact directory (layout.only unknown List.prefix_rfl)
  · rw [isFile_congr above (by rw [List.dropLast_concat]), layout.isFile_entry] at file
    cases file

theorem Layout.spared (layout : Layout json root tree topics)
    (new : topics.find? config.name.asStr = none) {left : FileTree}
    (beyond : Beyond root config.name.asStr tree left) {name : String} (known : topics.find? name ≠ none) :
    Open left (resolve root ++ [name]) ∧
      ∀ path, resolve root ++ [name] <+: path → left path = tree path := by
  have different : name ≠ config.name.asStr := by
    rintro rfl
    exact known new
  refine ⟨layout.open_entry (fun _ => beyond.above) ?_, fun _ => beyond.sibling different⟩
  rw [beyond.sibling different List.prefix_rfl]
  exact layout.entry known

section Points

variable (layout : Layout json root tree topics) (new : topics.find? config.name.asStr = none)
  (descends : Descends config.name.asStr)

include layout new descends

theorem Layout.crashed_first :
    crashed json root config tree (.before 1) = tree.put (resolve root ++ [config.name.asStr]) .empty := by
  change (perform [.createDirAll (topicDir root config.name.asStr)] tree).2 = _
  rw [perform, FileStep.run, layout.createDir descends new]
  rfl

theorem Layout.crashed_later (count : Nat) :
    crashed json root config tree (.before (count + 2)) = described root config.name.asStr
      (json.toVecPretty config) ((List.range config.partitions).take count) tree := by
  have performed := layout.perform_described new descends (json.toVecPretty config)
    ((List.range config.partitions).take count)
  rw [List.map_take] at performed
  exact congrArg Prod.snd performed

theorem Layout.crashed_writing (written : Nat) :
    crashed json root config tree (.writing written) = described root config.name.asStr
      ((json.toVecPretty config).take written) [] tree :=
  congrArg Prod.snd (layout.perform_described new descends ((json.toVecPretty config).take written) [])

theorem Layout.beyond_crashed (point : CrashPoint) :
    Beyond root config.name.asStr tree (crashed json root config tree point) := by
  match point with
  | .before 0 => exact fun _ _ => rfl
  | .before 1 =>
      rw [layout.crashed_first new descends]
      exact .put tree List.prefix_rfl _
  | .before (count + 2) =>
      rw [layout.crashed_later new descends]
      exact beyond_described _ _ _ _ tree
  | .writing written =>
      rw [layout.crashed_writing new descends]
      exact beyond_described _ _ _ _ tree

end Points

section Descriptions

/-! The new entry once there is a description in it. -/

variable {listing : Pathname → List String} (layout : Layout json root tree topics)
  (new : topics.find? config.name.asStr = none)

include layout new

theorem Layout.readable_described (indices : List Nat)
    (lists : (described root config.name.asStr (json.toVecPretty config) indices tree).Lists listing)
    (descends : Descends config.name.asStr) :
    Readable json listing root config (fun _ => .empty)
      (described root config.name.asStr (json.toVecPretty config) indices tree) := by
  have here := described_here root config.name.asStr (json.toVecPretty config) indices tree
  have below := @Layout.described_below json root tree topics config.name.asStr layout new
    (json.toVecPretty config) indices
  have parts : ∀ index : Nat,
      ((described root config.name.asStr (json.toVecPretty config) indices tree
        (resolve root ++ [config.name.asStr] ++ [toString index])).getD .empty) = .empty := by
    intro index
    rw [below (by simp)]
    split <;> rfl
  refine ⟨?_, ⟨_, here, rfl⟩, ?_, ?_, ?_⟩
  · refine layout.open_entry (fun _ => (beyond_described _ _ _ _ tree).above) ?_
    rw [here]
    exact nofun
  · rw [below (by simp), if_neg]
    rintro ⟨index, _, same⟩
    exact toString_ne_meta index (List.cons.inj same).1.symm
  · intro index _
    rw [parts index]
    rfl
  · intro index _
    have target := resolve_partitionDir root descends index
    rw [← target]
    refine listing_perm lists ?_ ?_
    · intro name
      rw [target, List.append_assoc, below (by simp), if_neg]
      rintro ⟨_, _, same⟩
      have lengths := congrArg List.length same
      simp at lengths
    · rw [target, parts index]
      exact List.nodup_nil

theorem Layout.yields_described (indices : List Nat)
    (lists : (described root config.name.asStr (json.toVecPretty config) indices tree).Lists listing)
    (descends : Descends config.name.asStr) :
    Yields json listing root (described root config.name.asStr (json.toVecPretty config) indices tree)
      config.name.asStr (some { config, partitions := freshPartitions root config })
      (fun path => resolve root ++ [config.name.asStr] <+: path) := by
  refine ((layout.readable_described new indices lists descends).yields descends).mono ?_
  rintro _ ⟨_, index, _, rfl⟩
  exact List.prefix_append _ _

/-- Whatever there is of the new topic yields it, or nothing. -/
theorem Layout.yields_crashed (descends : Descends config.name.asStr) {point : CrashPoint}
    (whole : point.Whole json config) (lists : (crashed json root config tree point).Lists listing) :
    ∃ found, (found = none ∨ found = some { config, partitions := freshPartitions root config }) ∧
      Yields json listing root (crashed json root config tree point) config.name.asStr found
        (fun path => resolve root ++ [config.name.asStr] <+: path) := by
  match point with
  | .before 0 =>
      refine ⟨none, .inl rfl, (yields_nothing descends (.inl ?_)).mono fun _ => False.elim⟩
      exact layout.only new List.prefix_rfl
  | .before 1 =>
      rw [layout.crashed_first new descends]
      refine ⟨none, .inl rfl, (yields_nothing descends (.inr ⟨?_, ?_⟩)).mono fun _ => False.elim⟩
      · rw [PathTree.put_other _ (by simp)]
        exact layout.only new (List.prefix_append _ _)
      · rw [FileTree.isFile, FileTree.file?_concat, PathTree.put_self]
        rfl
  | .before (count + 2) =>
      rw [layout.crashed_later new descends] at lists ⊢
      exact ⟨_, .inr rfl, layout.yields_described new _ lists descends⟩
  | .writing written =>
      rw [layout.crashed_writing new descends, List.take_of_length_le (whole written rfl)] at lists ⊢
      exact ⟨_, .inr rfl, layout.yields_described new _ lists descends⟩

theorem Layout.refuses_short {written : Nat} (short : written < (json.toVecPretty config).length)
    (descends : Descends config.name.asStr) :
    Refuses json listing root
      (described root config.name.asStr ((json.toVecPretty config).take written) [] tree)
      config.name.asStr := by
  obtain ⟨reason, unparsed⟩ := json.rejects config written short
  refine refuses_unparsed descends (described_here _ _ _ _ _) rfl ?_ unparsed
  rw [layout.described_below new _ _ (by simp), if_neg]
  rintro ⟨_, member, _⟩
  cases member

end Descriptions

section Survivors

variable {inner : Inner} {store : FileLogStore} {view : StoreView} {left : FileTree}
  {listing : Pathname → List String}

/-- The old topics lie as they did, and every other entry of the root yields
nothing, or the new topic. -/
theorem Laid.survives (laid : Laid json inner tree store) (displays : store.Displays view)
    (new : store.topics.find? config.name.asStr = none) (lists : left.Lists listing)
    (rooted : Open left (resolve inner.root))
    (old : ∀ {name}, store.topics.find? name ≠ none → Open left (resolve inner.root ++ [name]) ∧
      ∀ path, resolve inner.root ++ [name] <+: path → left path = tree path)
    {found : Option PlacedTopic}
    (others : ∀ name ∈ listing inner.root, store.topics.find? name = none →
      Yields json listing inner.root left name (if name = config.name.asStr then found else none)
        (fun path => resolve inner.root ++ [config.name.asStr] <+: path))
    (shown : found = none ∨
      found = some { config, partitions := freshPartitions inner.root config }) :
    ∃ after later, Inner.open json listing inner.root left = .ok (after, later) ∧
      Survives inner tree config after later := by
  have known : ∀ {name topic}, store.topics.find? name = some topic → store.topics.find? name ≠ none := by
    intro name topic here
    rw [here]
    exact nofun
  have yields : ∀ name ∈ listing inner.root, Yields json listing inner.root left name
      ((inner.topics.find? name).or (if name = config.name.asStr then found else none))
      (fun path => resolve inner.root ++ [config.name.asStr] <+: path) := by
    intro name member
    cases here : store.topics.find? name with
    | none =>
        rw [laid.find?, here]
        exact others name member here
    | some topic =>
        obtain ⟨opened, same⟩ := old (known here)
        have recovers := laid.yields here (displays.inStep here) opened same lists
        have other : name ≠ config.name.asStr := by
          rintro rfl
          exact known here new
        rw [if_neg other, Option.or_none]
        exact recovers.mono fun _ => False.elim
  obtain ⟨after, later, opens, _, finds, keeps⟩ := open_ok rooted lists _ _ yields
  refine ⟨after, later, opens, ?_, ?_, ?_⟩
  · intro name other
    rw [finds, if_neg other, Option.or_none]
    split
    · rfl
    · rename_i unlisted
      cases here : store.topics.find? name with
      | none =>
          rw [laid.find?, here]
          rfl
      | some topic =>
          obtain ⟨opened, _⟩ := old (known here)
          exact absurd ((lists.mem _ name).mpr (.inl (opened _ List.prefix_rfl).1)) unlisted
  · intro name topic here part member
    rw [laid.find?] at here
    obtain ⟨state, stored, rfl⟩ := Option.map_eq_some_iff.mp here
    obtain ⟨index, indexed⟩ := List.mem_iff_getElem?.mp member
    rw [laid.part? stored] at indexed
    obtain ⟨_, _, rfl⟩ := Option.map_eq_some_iff.mp indexed
    have target := resolve_partitionDir inner.root (laid.layout.named stored).2.1 index
    have under : resolve inner.root ++ [name] <+: resolve (partitionDir inner.root name index) :=
      ⟨_, target.symm⟩
    rw [keeps, (old (known stored)).2 _ under]
    intro _ _ added
    rw [prefix_siblings under added] at stored
    exact known stored new
  · rw [finds, laid.find?, new]
    split
    · rw [if_pos rfl]
      exact shown
    · exact .inl rfl

theorem Laid.survives_whole (laid : Laid json inner tree store) (displays : store.Displays view)
    (new : store.topics.find? config.name.asStr = none) (descends : Descends config.name.asStr)
    {point : CrashPoint} (whole : point.Whole json config)
    (lists : (crashed json inner.root config tree point).Lists listing) :
    ∃ after later, Inner.open json listing inner.root (crashed json inner.root config tree point) =
        .ok (after, later) ∧ Survives inner tree config after later := by
  have beyond := laid.layout.beyond_crashed new descends point
  obtain ⟨found, shown, yields⟩ := laid.layout.yields_crashed new descends whole lists
  refine laid.survives displays new lists (laid.layout.rooted.congr fun _ => beyond.above)
    (laid.layout.spared new beyond) ?_ shown
  intro name member unknown
  have same := laid.layout.listed_new beyond lists member unknown
  rw [if_pos same, same]
  exact yields

/-- Once the file is there, and not all of its bytes, no store opens. -/
theorem Laid.torn (laid : Laid json inner tree store) (displays : store.Displays view)
    (new : store.topics.find? config.name.asStr = none) (descends : Descends config.name.asStr)
    {written : Nat} (short : written < (json.toVecPretty config).length)
    (lists : (crashed json inner.root config tree (.writing written)).Lists listing) :
    ∃ reason, Inner.open json listing inner.root
      (crashed json inner.root config tree (.writing written)) = .error reason := by
  have beyond := laid.layout.beyond_crashed new descends (.writing written)
  have refuses := @Layout.refuses_short json inner.root tree store.topics config listing laid.layout new
    written short descends
  rw [← laid.layout.crashed_writing new descends] at refuses
  refine open_fails (laid.layout.rooted.congr fun _ => beyond.above) lists ?_ ?_ refuses
  · intro name member
    cases here : store.topics.find? name with
    | none =>
        rw [laid.layout.listed_new beyond lists member here]
        exact .inr refuses
    | some topic =>
        obtain ⟨opened, same⟩ := laid.layout.spared new beyond (by rw [here]; exact nofun)
        exact .inl ⟨_, _, laid.yields here (displays.inStep here) opened same lists⟩
  · rw [lists.mem, laid.layout.crashed_writing new descends, described_here]
    exact .inl nofun

end Survivors

section Brushed

/-! A topic called `.` or `..` is described in a directory that is there, next to
the topics or above them. -/

structure Brushed (base : Pathname) (tree left : FileTree) : Prop where
  dirs : ∀ path, path ≠ base → left path = tree path ∨
    tree path = none ∧ left path = some .empty ∧ ∃ index : Nat, path = base ++ [toString index]
  here : left base ≠ none
  files : ∀ path, left.isFile path = true →
    tree.isFile path = true ∨ path = base ++ ["topic.json"] ∧ tree path = none

def FileStep.Near (base : Pathname) : FileStep → Prop
  | .createDirAll path => resolve path = base ∨ ∃ index : Nat, resolve path = base ++ [toString index]
  | .write path _ => resolve path = base ++ ["topic.json"]

variable {base : Pathname} {left after : FileTree}

theorem Brushed.missing (brushed : Brushed base tree left) {path : Pathname} (absent : left path = none) :
    tree path = none := by
  rcases brushed.dirs path (fun same => brushed.here (same ▸ absent)) with same | ⟨none, _⟩
  · rw [← same, absent]
  · exact none

variable (present : ∀ path, path <+: base → tree path ≠ none)

include present

theorem Brushed.createDirAll (brushed : Brushed base tree left) {path : Pathname}
    (near : (FileStep.createDirAll path).Near base) (made : left.createDirAll path = .ok after) :
    Brushed base tree after := by
  rw [FileTree.createDirAll_eq made]
  refine ⟨?_, ?_, ?_⟩
  · intro other different
    cases contents : left other with
    | some dir =>
        have kept : left.ensure Directory.empty (resolve path).inits other = left other := by
          unfold PathTree.ensure
          rw [contents]
          split <;> rfl
        rw [kept]
        exact brushed.dirs other different
    | none =>
        have absent := brushed.missing contents
        by_cases member : other ∈ (resolve path).inits
        · rw [PathTree.ensure_of_mem _ member, contents]
          have above := (List.mem_inits _ _).mp member
          rcases near with same | ⟨index, same⟩
          · exact absurd absent (present other (same ▸ above))
          · rw [same] at above
            rcases List.prefix_concat_iff.mp above with last | higher
            · exact .inr ⟨absent, rfl, index, last⟩
            · exact absurd absent (present other higher)
        · rw [PathTree.ensure_of_not_mem _ member, contents]
          exact .inl absent.symm
  · unfold PathTree.ensure
    split
    · exact nofun
    · exact brushed.here
  · intro other file
    rw [FileTree.isFile_ensure] at file
    exact brushed.files other file

omit present in
theorem Brushed.write (brushed : Brushed base tree left) {path : Pathname} {bytes : Bytes}
    (near : (FileStep.write path bytes).Near base) (made : left.write path bytes = .ok after) :
    Brushed base tree after := by
  obtain ⟨dir, contents⟩ := Option.ne_none_iff_exists'.mp brushed.here
  unfold FileTree.write at made
  rw [show resolve path = base ++ ["topic.json"] from near] at made
  simp only [List.getLast?_concat, List.dropLast_concat, contents] at made
  split at made
  · cases made
  rename_i vacant
  rw [Bool.not_eq_true, Option.isSome_eq_false_iff, Option.isNone_iff_eq_none] at vacant
  cases made
  refine ⟨?_, ?_, ?_⟩
  · intro other different
    rw [PathTree.put_other _ different]
    exact brushed.dirs other different
  · rw [PathTree.put_self]
    exact nofun
  · intro other file
    rcases List.eq_nil_or_concat' other with rfl | ⟨front, last, rfl⟩
    · cases file
    · by_cases same : front = base
      · rw [FileTree.isFile, FileTree.file?_concat, same, PathTree.put_self, Option.bind_some,
          Directory.isSome_read?] at file
        rcases Directory.mem_put file with described | old
        · rw [same, described]
          exact .inr ⟨rfl, brushed.missing vacant⟩
        · apply brushed.files
          rw [FileTree.isFile, FileTree.file?_concat, same, contents, Option.bind_some]
          exact (Directory.isSome_read? dir last).mpr old
      · apply brushed.files
        rw [FileTree.isFile, FileTree.file?_concat] at file ⊢
        rwa [PathTree.put_other _ same] at file

theorem Brushed.perform (steps : List FileStep) (near : ∀ step ∈ steps, step.Near base)
    (brushed : Brushed base tree left) : Brushed base tree (perform steps left).2 := by
  induction steps generalizing left with
  | nil => exact brushed
  | cons step rest ih =>
      have nearStep := near step List.mem_cons_self
      rw [Infra.perform]
      cases ran : step.run left with
      | error reason => exact brushed
      | ok next =>
          refine ih (fun other member => near other (List.mem_cons_of_mem _ member)) ?_
          cases step with
          | createDirAll path => exact brushed.createDirAll present nearStep ran
          | write path bytes => exact brushed.write nearStep ran

end Brushed

section Special

theorem special_above {name : String} (special : ¬ Descends name) (root : Pathname) :
    resolve (topicDir root name) <+: resolve root := by
  rw [topicDir, resolve, List.foldl_append]
  change resolveStep (resolve root) name <+: resolve root
  unfold resolveStep
  split
  · exact List.prefix_rfl
  · split
    · exact List.dropLast_prefix _
    · rename_i notDot notDots
      exact absurd ⟨notDot, notDots⟩ special

theorem crashed_near (json : TopicJson) (root : Pathname) (config : TopicConfig) (tree : FileTree)
    (point : CrashPoint) : ∃ steps, crashed json root config tree point = (perform steps tree).2 ∧
      ∀ step ∈ steps, step.Near (resolve (topicDir root config.name.asStr)) := by
  have directory : (FileStep.createDirAll (topicDir root config.name.asStr)).Near
      (resolve (topicDir root config.name.asStr)) := .inl rfl
  have description : ∀ bytes, (FileStep.write (metaPath root config.name.asStr) bytes).Near
      (resolve (topicDir root config.name.asStr)) := fun _ => resolve_concat _ descends_meta
  cases point with
  | before step =>
      refine ⟨(createSteps json root config).take step, rfl, ?_⟩
      intro other member
      have either := List.mem_of_mem_take member
      rw [createSteps, List.mem_cons, List.mem_cons] at either
      rcases either with rfl | rfl | inside
      · exact directory
      · exact description _
      · obtain ⟨index, _, rfl⟩ := List.mem_map.mp inside
        exact .inr ⟨index, resolve_concat _ (descends_toString index)⟩
  | writing written =>
      refine ⟨_, rfl, ?_⟩
      intro other member
      rw [List.mem_cons, List.mem_singleton] at member
      rcases member with rfl | rfl
      · exact directory
      · exact description _

variable {base : Pathname} {left : FileTree}

theorem Layout.brushed (layout : Layout json root tree topics) (above : base <+: resolve root)
    (brushed : Brushed base tree left) {name : String} (known : topics.find? name ≠ none) {path : Pathname}
    (under : resolve root ++ [name] <+: path) : left path = tree path := by
  have longer := above.length_le
  have deeper := under.length_le
  rw [List.length_append, List.length_singleton] at deeper
  have different : path ≠ base := by
    rintro rfl
    omega
  rcases brushed.dirs path different with same | ⟨absent, _, index, rfl⟩
  · exact same
  · -- A partition can only be in the place of a topic when there is none.
    rw [List.length_append, List.length_singleton] at deeper
    have here := under.eq_of_length (by simp; omega)
    rw [← here] at absent
    exact absurd absent (layout.entry known)

theorem Brushed.rooted (rooted : Open tree (resolve root)) (brushed : Brushed base tree left) : Open left (resolve root) := by
  intro path higher
  obtain ⟨present, clear⟩ := rooted path higher
  refine ⟨fun absent => present (brushed.missing absent), ?_⟩
  rw [← Bool.not_eq_true]
  intro file
  rcases brushed.files path file with same | ⟨_, absent⟩
  · rw [clear] at same
    cases same
  · exact present absent

theorem Layout.brushed_new (layout : Layout json root tree topics) (brushed : Brushed base tree left)
    {listing : Pathname → List String} (lists : left.Lists listing) {name : String}
    (above : base <+: resolve root) (member : name ∈ listing root) (unknown : topics.find? name = none) :
    Yields json listing root left name none (fun _ => False) := by
  have longer := above.length_le
  have nothing : ∀ {rest}, tree (resolve root ++ [name] ++ rest) = none :=
    layout.only unknown (List.prefix_append _ _)
  have different : ∀ {rest}, resolve root ++ [name] ++ rest ≠ base := by
    rintro rest rfl
    simp at longer
  have last : ∀ {component component' : String} {front : Pathname},
      front ++ [component] = base ++ [component'] → component = component' := by
    intro component component' front same
    exact (List.cons.inj (List.append_inj_right' same rfl)).1
  have entry := brushed.dirs (resolve root ++ [name]) (by simpa using @different [])
  rw [show tree (resolve root ++ [name]) = none by simpa using @nothing []] at entry
  have descends : Descends name := by
    rcases (lists.mem root name).mp member with directory | file
    · rcases entry with absent | ⟨_, _, index, same⟩
      · exact absurd absent directory
      · rw [last same]
        exact descends_toString index
    · rcases brushed.files _ file with old | ⟨same, _⟩
      · rw [layout.isFile_entry] at old
        cases old
      · rw [last same]
        exact descends_meta
  apply yields_nothing descends
  rcases entry with absent | ⟨_, empty, _⟩
  · exact .inl absent
  · refine .inr ⟨?_, ?_⟩
    · rcases brushed.dirs (resolve root ++ [name] ++ ["topic.json"]) different with same | ⟨_, _, index, same⟩
      · rw [same, nothing]
      · exact absurd (last same).symm (toString_ne_meta index)
    · rw [FileTree.isFile, FileTree.file?_concat, empty]
      rfl

theorem Laid.survives_special {inner : Inner} {store : FileLogStore} {view : StoreView}
    {listing : Pathname → List String} (laid : Laid json inner tree store) (displays : store.Displays view)
    (new : store.topics.find? config.name.asStr = none) (special : ¬ Descends config.name.asStr)
    {point : CrashPoint} (lists : (crashed json inner.root config tree point).Lists listing) :
    ∃ after later, Inner.open json listing inner.root (crashed json inner.root config tree point) =
        .ok (after, later) ∧ Survives inner tree config after later := by
  have above := special_above special inner.root
  have present : ∀ path, path <+: resolve (topicDir inner.root config.name.asStr) → tree path ≠ none :=
    fun path higher => (laid.layout.rooted path (higher.trans above)).1
  have untouched : Brushed (resolve (topicDir inner.root config.name.asStr)) tree tree :=
    ⟨fun _ _ => .inl rfl, present _ List.prefix_rfl, fun _ => .inl⟩
  obtain ⟨steps, performed, near⟩ := crashed_near json inner.root config tree point
  have brushed := untouched.perform present steps near
  rw [← performed] at brushed
  have rooted := brushed.rooted laid.layout.rooted
  refine laid.survives displays new lists rooted ?_ ?_ (.inl rfl)
  · intro name known
    have same := @Layout.brushed json inner.root tree store.topics _ _ laid.layout above brushed name known
    refine ⟨?_, fun _ => same⟩
    intro path higher
    rcases List.prefix_concat_iff.mp higher with rfl | higher
    · refine ⟨by rw [same List.prefix_rfl]; exact laid.layout.entry known, ?_⟩
      rw [← Bool.not_eq_true]
      intro file
      rcases brushed.files _ file with old | ⟨_, absent⟩
      · rw [laid.layout.isFile_entry] at old
        cases old
      · exact laid.layout.entry known absent
    · exact rooted path higher
  · intro name member unknown
    rw [ite_self]
    exact (laid.layout.brushed_new brushed lists above member unknown).mono fun _ => False.elim

end Special

/-- After a crash in the creation of a topic, the store can be opened with all
that was in it, unless the crash came in the middle of the description. -/
theorem create_crash_recovers {inner : Inner} (run : Operated json root Proper inner tree)
    (new : inner.topics.find? config.name.asStr = none) (point : CrashPoint)
    {listing : Pathname → List String} (lists : (crashed json root config tree point).Lists listing) :
    (∃ after later, Inner.open json listing root (crashed json root config tree point) =
        .ok (after, later) ∧ Survives inner tree config after later) ↔
      (Descends config.name.asStr → point.Whole json config) := by
  obtain ⟨rfl, store, view, laid, displays⟩ := run.orderly
  rw [laid.find?, Option.map_eq_none_iff] at new
  constructor
  · rintro ⟨after, later, opens, _⟩ descends written rfl
    by_contra short
    obtain ⟨reason, fails⟩ := laid.torn displays new descends (Nat.lt_of_not_le short) lists
    rw [fails] at opens
    cases opens
  · intro whole
    by_cases descends : Descends config.name.asStr
    · exact laid.survives_whole displays new descends (whole descends) lists
    · exact laid.survives_special displays new descends lists

theorem valid_payments : checkName maxTopicNameLen "payments" = .ok () := by decide

def paymentsTopic : TopicConfig where
  name := ⟨"payments", valid_payments⟩
  partitions := 1
  retention := { segmentMaxRecords := 9, maxRecords := 0 }

/-- A crash before the first partition of a topic is made, in a store that has another
topic with a record in it. -/
theorem create_crash_recovers_beside :
    ∃ inner tree topic listing after later, Operated .pretty ["data"] Proper inner tree ∧
      inner.topics.find? "orders" = some topic ∧
      topic.partitions.map (fun part => part.state.nextOffset) = [1] ∧
      (crashed .pretty ["data"] paymentsTopic tree (.before 2)).Lists listing ∧
      Inner.open .pretty listing ["data"] (crashed .pretty ["data"] paymentsTopic tree (.before 2)) =
        .ok (after, later) ∧ Survives inner tree paymentsTopic after later := by
  obtain ⟨inner, tree, store, topic, run, laid, finite, found, new, next⟩ := ordersStore_operated
  have descends : Descends paymentsTopic.name.asStr := by decide
  have root : inner.root = ["data"] := run.orderly.1
  obtain ⟨listing, lists⟩ : ∃ listing,
      (crashed .pretty ["data"] paymentsTopic tree (.before 2)).Lists listing := by
    rw [← root, laid.layout.crashed_later new descends 0]
    exact ((finite.put _ _).ensure _).listed
  have absent : inner.topics.find? paymentsTopic.name.asStr = none := by
    rw [laid.find?, Option.map_eq_none_iff]
    exact new
  obtain ⟨after, later, opens, survives⟩ :=
    (create_crash_recovers run absent (.before 2) lists).mpr fun _ => nofun
  refine ⟨inner, tree, place inner.root topic, listing, after, later, run, ?_, ?_, lists, opens, survives⟩
  · rw [laid.find?, found]
    rfl
  · have states := congrArg (List.map PartitionState.nextOffset) (place_states inner.root topic)
    rw [List.map_map, List.map_map] at states
    exact states.trans next

/-- A crash right after the file was created. -/
theorem create_crash_locks :
    ∃ inner tree listing, Operated .pretty ["data"] Checked inner tree ∧
      inner.topics.find? ordersTopic.name.asStr = none ∧
      TopicConfig.new ordersTopic.name ordersTopic.partitions ordersTopic.retention = .ok ordersTopic ∧
      (crashed .pretty ["data"] ordersTopic tree (.writing 0)).Lists listing ∧
      ∃ reason, Inner.open .pretty listing ["data"]
        (crashed .pretty ["data"] ordersTopic tree (.writing 0)) = .error reason := by
  obtain ⟨run, laid⟩ := dataStore_operated Checked
  have descends : Descends ordersTopic.name.asStr := by decide
  obtain ⟨listing, lists⟩ : ∃ listing,
      (crashed .pretty ["data"] ordersTopic dataTree (.writing 0)).Lists listing := by
    rw [show crashed .pretty ["data"] ordersTopic dataTree (.writing 0) = _ from
      laid.layout.crashed_writing rfl descends 0]
    exact ((dataTree_finite.put _ _).ensure _).listed
  have displays : FileLogStore.Displays .new .empty := ⟨.empty, fun _ member => by cases member⟩
  exact ⟨dataStore, dataTree, listing, run, rfl, rfl, lists,
    laid.torn displays rfl descends (by decide) lists⟩

end ConnectForge.Infra
