import ConnectForge.Infra.Reopening
import ConnectForge.Infra.TopicJson

namespace ConnectForge.Infra

open Data SegmentedLog

/-! Whole runs of a store in its tree, and what a restart makes of them. -/

def Vacant (root : Pathname) (tree : FileTree) : Prop :=
  (∀ dir, tree (resolve root) = some dir → dir.files = []) ∧
  ∀ path, resolve root <+: path → path ≠ resolve root → tree path = none

/-- The states of a store that was opened on a vacant root, with its tree. -/
inductive Operated (json : TopicJson) (root : Pathname) (allowed : StoreCall → Prop) :
    Inner → FileTree → Prop where
  | opened {tree made after inner listing} (vacant : Vacant root tree)
      (makes : tree.createDirAll root = .ok made) (lists : made.Lists listing)
      (opens : Inner.open json listing root tree = .ok (inner, after)) :
      Operated json root allowed inner after
  | called {inner after tree later} {request : StoreCall} {answer : request.Answer}
      (earlier : Operated json root allowed inner tree) (met : allowed request)
      (handled : inner.handle json request tree = some (answer, after, later)) :
      Operated json root allowed after later
  | reopened {inner after tree later listing} (earlier : Operated json root allowed inner tree)
      (lists : tree.Lists listing) (opens : Inner.open json listing root tree = .ok (after, later)) :
      Operated json root allowed after later

def Checked : StoreCall → Prop
  | .createTopic config => TopicConfig.new config.name config.partitions config.retention = .ok config
  | _ => True

/-- Those of them that name no topic `.` or `..`, and append no record too long
for its framing. -/
def Proper : StoreCall → Prop
  | .createTopic config =>
      TopicConfig.new config.name config.partitions config.retention = .ok config ∧
        Descends config.name.asStr
  | .append _ _ records _ => ∀ record ∈ records, record.Fits
  | _ => True

theorem Proper.storable {request : StoreCall} (proper : Proper request) : Storable request := by
  cases request with
  | createTopic config => exact (TopicConfig.new_eq proper.1).2
  | append topic partition records timestamp => exact proper
  | _ => trivial

theorem Proper.named {request : StoreCall} (proper : Proper request) : Named request := by
  cases request with
  | createTopic config => exact proper.2
  | _ => trivial

variable {json : TopicJson} {root : Pathname} {inner : Inner} {tree : FileTree}

theorem Vacant.layout (vacant : Vacant root tree) {made : FileTree}
    (makes : tree.createDirAll root = .ok made) : Layout json root made .empty := by
  unfold FileTree.createDirAll at makes
  dsimp only at makes
  split at makes
  · cases makes
  split at makes
  · cases makes
  rename_i _ unobstructed
  cases makes
  have member : ∀ {path : Pathname}, path <+: resolve root → path ∈ (resolve root).inits :=
    fun above => (List.mem_inits _ _).mpr above
  have clear : ∀ path, path <+: resolve root → tree.isFile path = false := by
    intro path above
    simp only [Bool.not_eq_true, List.any_eq_false] at unobstructed
    exact unobstructed path (member above)
  refine ⟨nofun, ?_, ?_, ?_⟩
  · intro path above
    rw [PathTree.ensure_of_mem _ (member above)]
    refine ⟨nofun, ?_⟩
    rcases List.eq_nil_or_concat' path with rfl | ⟨front, last, rfl⟩
    · rfl
    · have higher := (List.prefix_append front [last]).trans above
      have free := clear _ above
      rw [FileTree.isFile, FileTree.file?_concat] at free ⊢
      rw [PathTree.ensure_of_mem _ (member higher), Option.bind_some]
      cases here : tree front with
      | none => rfl
      | some dir =>
          rw [here] at free
          exact free
  · intro dir here
    rw [PathTree.ensure_of_mem _ (member List.prefix_rfl)] at here
    cases found : tree (resolve root) with
    | none =>
        rw [found] at here
        cases here
        rfl
    | some contents =>
        rw [found] at here
        cases here
        exact vacant.1 _ found
  · intro name path _ under
    have deeper : ¬ path <+: resolve root := fun above => not_prefix_self _ _ (under.trans above)
    rw [PathTree.ensure_of_not_mem _ fun inside => deeper ((List.mem_inits _ _).mp inside)]
    refine vacant.2 path ((List.prefix_append _ _).trans under) ?_
    rintro rfl
    exact deeper List.prefix_rfl

/-- What a run keeps while its calls are proper: a store with directories of its
own that behaves the same. -/
def Orderly (json : TopicJson) (root : Pathname) (inner : Inner) (tree : FileTree) : Prop :=
  inner.root = root ∧ ∃ store view, Laid json inner tree store ∧ FileLogStore.Displays store view

theorem FileLogStore.Displays.inStep {store : FileLogStore} {view : StoreView}
    (displays : store.Displays view) {name : String} {topic : TopicState}
    (found : store.topics.find? name = some topic) : ∀ part ∈ topic.partitions, InStep part := by
  rcases displays.topics.find? name with ⟨absent, _⟩ | ⟨state, log, here, _, both⟩
  · rw [found] at absent
    cases absent
  · rw [found] at here
    cases here
    intro part member
    obtain ⟨index, here⟩ := List.mem_iff_getElem?.mp member
    rcases forall₂_getElem? both.partitions index with ⟨none, _⟩ | ⟨first, _, first', _, kept⟩
    · rw [none] at here
      cases here
    · rw [first'] at here
      cases here
      obtain ⟨segmented, represents, _⟩ := kept
      exact ⟨segmented, represents⟩

theorem Laid.displayed {store : FileLogStore} {view : StoreView} (laid : Laid json inner tree store)
    (displays : store.Displays view) {listing : Pathname → List String} (lists : tree.Lists listing) :
    Inner.open json listing inner.root tree =
      .ok ({ inner with fetchedTotal := 0, producedTotal := 0 }, tree) :=
  laid.reopens (fun found => displays.inStep found) lists

theorem Vacant.opens (json : TopicJson) (vacant : Vacant root tree) {made : FileTree} {listing : Pathname → List String}
    (makes : tree.createDirAll root = .ok made) (lists : made.Lists listing) :
    Laid json { root, topics := .empty, fetchedTotal := 0, producedTotal := 0 } made .new ∧
      FileLogStore.Displays .new .empty ∧ Inner.open json listing root tree =
        .ok ({ root, topics := .empty, fetchedTotal := 0, producedTotal := 0 }, made) := by
  have laid : Laid json { root, topics := .empty, fetchedTotal := 0, producedTotal := 0 } made .new :=
    ⟨.empty, rfl, rfl, vacant.layout makes⟩
  have displays : FileLogStore.Displays .new .empty := ⟨.empty, fun _ member => by cases member⟩
  have reopened := laid.displayed displays lists
  rw [Inner.open, laid.layout.rooted.createDirAll] at reopened
  refine ⟨laid, displays, ?_⟩
  rw [Inner.open, makes]
  exact reopened

theorem Operated.orderly (run : Operated json root Proper inner tree) : Orderly json root inner tree := by
  induction run with
  | @opened tree made after inner listing vacant makes lists opens =>
      obtain ⟨laid, displays, opened⟩ := vacant.opens json makes lists
      cases opened.symm.trans opens
      exact ⟨rfl, _, _, laid, displays⟩
  | called _ proper handled ih =>
      obtain ⟨rooted, store, view, laid, displays⟩ := ih
      obtain ⟨same, store', answered, laid'⟩ := laid.step proper.named handled
      obtain ⟨view', _, displays'⟩ := displays.step proper.storable answered
      exact ⟨same.trans rooted, store', view', laid', displays'⟩
  | reopened _ lists opens ih =>
      obtain ⟨rfl, store, view, laid, displays⟩ := ih
      rw [laid.displayed displays lists] at opens
      cases opens
      exact ⟨rfl, { store with fetchedTotal := 0, producedTotal := 0 }, view,
        ⟨laid.topics, rfl, rfl, laid.layout⟩, displays.topics, displays.valid⟩

/-- Topics have directories of their own, directly in the root. -/
structure Inner.Housed (inner : Inner) : Prop where
  child : ∀ {name topic}, inner.topics.find? name = some topic →
    ∃ entry, resolve (topicDir inner.root name) = resolve inner.root ++ [entry]
  distinct : ∀ {left right leftTopic rightTopic}, inner.topics.find? left = some leftTopic →
    inner.topics.find? right = some rightTopic → left ≠ right →
    resolve (topicDir inner.root left) ≠ resolve (topicDir inner.root right)

/-- While no topic is called `.` or `..`, and no record is too long, every topic
has its own directory in the root, and a restart brings back exactly the topics
there are, with their configurations and partitions. -/
theorem restart_recovers (run : Operated json root Proper inner tree) :
    inner.Housed ∧ ∀ listing, tree.Lists listing → Inner.open json listing root tree =
      .ok ({ inner with fetchedTotal := 0, producedTotal := 0 }, tree) := by
  obtain ⟨rfl, store, view, laid, displays⟩ := run.orderly
  have descends : ∀ {name topic}, inner.topics.find? name = some topic → Descends name := by
    intro name topic found
    rw [laid.find?] at found
    obtain ⟨stored, here, _⟩ := Option.map_eq_some_iff.mp found
    exact (laid.layout.named here).2.1
  refine ⟨⟨?_, ?_⟩, fun listing lists => laid.displayed displays lists⟩
  · intro name topic found
    exact ⟨name, resolve_topicDir inner.root (descends found)⟩
  · intro left right leftTopic rightTopic leftFound rightFound different same
    rw [resolve_topicDir inner.root (descends leftFound),
      resolve_topicDir inner.root (descends rightFound), List.append_cancel_left_eq] at same
    exact different (List.cons.inj same).1

/-- A tree with nothing but the root of the file system. -/
def bareTree : FileTree := fun path => if path = [] then some .empty else none

/-- The tree in which a store was opened at `/data`. -/
def dataTree : FileTree := PathTree.put bareTree ["data"] .empty

theorem dataTree_finite : dataTree.Finite := by
  refine FileTree.Finite.put ⟨[[]], ?_⟩ ["data"] .empty
  intro path present
  by_contra other
  rw [bareTree, if_neg (by simpa using other)] at present
  exact present rfl

theorem dataTree_made : bareTree.createDirAll ["data"] = .ok dataTree := by
  have target : resolve ["data"] = ["data"] := by decide
  have above : ∀ path, path <+: ["data"] → path = [] ∨ path = ["data"] := by
    intro path shorter
    simpa using (List.mem_inits path ["data"]).mpr shorter
  rw [FileTree.createDirAll_ok, target, PathTree.ensure_new _ (by decide)]
  · rfl
  · intro path shorter
    rcases above path (target ▸ shorter) with rfl | rfl <;> decide
  · intro path shorter different
    rcases above path (target ▸ shorter) with rfl | rfl
    · decide
    · exact absurd target.symm different

theorem dataTree_vacant : Vacant ["data"] bareTree := by
  refine ⟨nofun, ?_⟩
  intro path under _
  rw [bareTree, if_neg]
  rintro rfl
  revert under
  decide

/-- A store just opened at `/data`. -/
def dataStore : Inner := { root := ["data"], topics := .empty, fetchedTotal := 0, producedTotal := 0 }

theorem dataStore_operated (allowed : StoreCall → Prop) :
    Operated .pretty ["data"] allowed dataStore dataTree ∧ Laid .pretty dataStore dataTree .new := by
  obtain ⟨listing, lists⟩ := dataTree_finite.listed
  obtain ⟨laid, _, opens⟩ := dataTree_vacant.opens .pretty dataTree_made lists
  exact ⟨.opened dataTree_vacant dataTree_made lists opens, laid⟩

theorem valid_orders : checkName maxTopicNameLen "orders" = .ok () := by decide

def ordersTopic : TopicConfig where
  name := ⟨"orders", valid_orders⟩
  partitions := 1
  retention := { segmentMaxRecords := 9, maxRecords := 0 }

/-- A topic with a record in it. -/
theorem ordersStore_operated :
    ∃ inner tree store topic, Operated .pretty ["data"] Proper inner tree ∧ Laid .pretty inner tree store ∧
      tree.Finite ∧ store.topics.find? "orders" = some topic ∧ store.topics.find? "payments" = none ∧
      topic.partitions.map (fun part => part.state.nextOffset) = [1] := by
  obtain ⟨run, laid⟩ := dataStore_operated Proper
  have descends : Descends ordersTopic.name.asStr := by decide
  have proper : Proper (.createTopic ordersTopic) := ⟨rfl, descends⟩
  have created := laid.creates rfl descends
  have stored := run.called proper (congrArg some created)
  obtain ⟨_, store, made, laid⟩ := laid.createTopic descends created
  obtain rfl : (FileLogStore.new.createTopic ordersTopic []).2 = store := congrArg Prod.snd made
  let record : ProduceRecord := ⟨none, [1]⟩
  obtain ⟨outcome, part, disk, appended, next⟩ : ∃ outcome part disk,
      PartitionState.fresh.append ordersTopic.retention [record] .epoch { dir := .empty, faults := [] } =
        some (.ok outcome, part, disk) ∧ part.nextOffset = 1 := ⟨_, _, _, rfl, rfl⟩
  obtain ⟨after, called, store', appends, found⟩ := @Laid.appends _ _ _ _ laid ordersTopic.name 0
    { config := ordersTopic, partitions := [⟨.fresh, .empty⟩] } rfl ⟨.fresh, .empty⟩ rfl _ _ _ _ _ appended
  have fits : Proper (.append ordersTopic.name 0 [record] .epoch) := by
    intro other member
    rw [List.mem_singleton.mp member]
    exact .keyless (by decide)
  obtain ⟨_, store'', appends', laid'⟩ := laid.append called
  cases appends.symm.trans appends'
  refine ⟨after, _, store', _, stored.called fits called, laid', ?_, found "orders", found "payments", ?_⟩
  · exact ((dataTree_finite.put _ _).ensure _).put _ _
  · rw [List.set_cons_zero, List.map_singleton, next]

theorem restart_recovers_orders :
    ∃ inner tree listing, Operated .pretty ["data"] Proper inner tree ∧
      inner.topics.find? "orders" ≠ none ∧ tree.Lists listing ∧ inner.Housed ∧
      Inner.open .pretty listing ["data"] tree =
        .ok ({ inner with fetchedTotal := 0, producedTotal := 0 }, tree) := by
  obtain ⟨run, laid⟩ := dataStore_operated Proper
  have handled : dataStore.handle .pretty (.createTopic ordersTopic) dataTree = _ :=
    congrArg some (laid.creates rfl (by decide))
  have proper : Proper (.createTopic ordersTopic) := ⟨rfl, by decide⟩
  have later := run.called proper handled
  obtain ⟨listing, lists⟩ := ((dataTree_finite.put _ _).ensure _).listed
  obtain ⟨housed, reopens⟩ := restart_recovers later
  exact ⟨_, _, listing, later, nofun, lists, housed, reopens listing lists⟩

def dotTopic : TopicConfig where
  name := ⟨".", by decide⟩
  partitions := 1
  retention := { segmentMaxRecords := 9, maxRecords := 0 }

def dotTree : FileTree :=
  PathTree.ensure .empty (PathTree.put dataTree ["data"] ⟨[("topic.json", TopicJson.prettyBytes dotTopic)], []⟩)
    [["data", "0"]]

def dotStore : Inner :=
  { dataStore with
    topics := dataStore.topics.insert "."
      { config := dotTopic, partitions := freshPartitions ["data"] dotTopic } }

theorem dotTree_created :
    dataStore.handle .pretty (.createTopic dotTopic) dataTree = some (.ok true, dotStore, dotTree) := by
  have rooted := (dataStore_operated Proper).2.layout.rooted
  have made : dataTree.createDirAll ["data", "."] = .ok dataTree := Open.createDirAll rooted
  have written : dataTree.write ["data", ".", "topic.json"] (TopicJson.prettyBytes dotTopic) =
      .ok (PathTree.put dataTree ["data"] ⟨[("topic.json", TopicJson.prettyBytes dotTopic)], []⟩) :=
    @FileTree.write_ok dataTree ["data", "."] "topic.json" .empty descends_meta rfl rfl
      (TopicJson.prettyBytes dotTopic)
  have target : resolve ["data", ".", "0"] = ["data", "0"] := by decide
  have above : ∀ path, path <+: ["data", "0"] → path = [] ∨ path = ["data"] ∨ path = ["data", "0"] := by
    intro path shorter
    simpa using (List.mem_inits path ["data", "0"]).mpr shorter
  have placed : FileTree.createDirAll
      (PathTree.put dataTree ["data"] ⟨[("topic.json", TopicJson.prettyBytes dotTopic)], []⟩)
      ["data", ".", "0"] = .ok dotTree := by
    rw [FileTree.createDirAll_ok, target]
    · rfl
    · intro path shorter
      rcases above path (target ▸ shorter) with rfl | rfl | rfl <;> rfl
    · intro path shorter different
      rcases above path (target ▸ shorter) with rfl | rfl | rfl
      · exact nofun
      · exact nofun
      · exact absurd target.symm different
  change some (dataStore.createTopic .pretty dotTopic dataTree) = _
  have steps : createSteps .pretty ["data"] dotTopic = [.createDirAll ["data", "."],
    .write ["data", ".", "topic.json"] (TopicJson.prettyBytes dotTopic),
    .createDirAll ["data", ".", "0"]] := rfl
  have performed : perform (createSteps .pretty dataStore.root dotTopic) dataTree = (.ok (), dotTree) := by
    change perform (createSteps .pretty ["data"] dotTopic) dataTree = _
    simp only [steps, perform, FileStep.run, made, written, placed]
  have new : dataStore.topics.find? dotTopic.name.asStr = none := rfl
  simp only [Inner.createTopic, new, performed]
  rfl

/-- It is not in a directory of its own, and a restart does not find it. -/
theorem dot_topic_lost :
    ∃ inner tree listing after later, Operated .pretty ["data"] Checked inner tree ∧
      inner.topics.find? "." ≠ none ∧ tree.Lists listing ∧ ¬ inner.Housed ∧
      Inner.open .pretty listing ["data"] tree = .ok (after, later) ∧ after.topics.find? "." = none := by
  have run := (dataStore_operated Checked).1.called (show Checked (.createTopic dotTopic) from rfl)
    dotTree_created
  obtain ⟨listing, lists⟩ : ∃ listing, dotTree.Lists listing :=
    ((dataTree_finite.put _ _).ensure _).listed
  have present : dotStore.topics.find? "." =
      some { config := dotTopic, partitions := freshPartitions ["data"] dotTopic } := rfl
  have rooted : Open dotTree (resolve ["data"]) := by
    intro path above
    have shorter : path = [] ∨ path = ["data"] := by
      simpa using (List.mem_inits path ["data"]).mpr above
    rcases shorter with rfl | rfl <;> exact ⟨Option.some_ne_none _, rfl⟩
  have yields : ∀ name ∈ listing ["data"],
      Yields .pretty listing ["data"] dotTree name none (fun _ => False) := by
    intro name member
    rcases (lists.mem ["data"] name).mp member with directory | file
    · have partition : name = "0" := by
        by_contra other
        apply directory
        change dotTree ["data", name] = none
        rw [dotTree, PathTree.ensure_of_not_mem _ (by simpa using other), PathTree.put_other _ (by simp), dataTree,
          PathTree.put_other _ (by simp)]
        rfl
      rw [partition]
      exact yields_nothing (by decide) (.inr ⟨rfl, rfl⟩)
    · have described : name = "topic.json" := by
        by_contra other
        have root : dotTree (resolve ["data"]) =
          some ⟨[("topic.json", TopicJson.prettyBytes dotTopic)], []⟩ := rfl
        have different : (name == "topic.json") = false := by simpa using other
        rw [FileTree.isFile, FileTree.file?_concat, root, Option.bind_some, Directory.read?] at file
        simp [List.lookup_cons, different] at file
      rw [described]
      exact yields_nothing descends_meta (.inl rfl)
  obtain ⟨after, later, opens, _, finds, _⟩ := open_ok rooted lists (fun _ => none) _ yields
  refine ⟨_, dotTree, listing, after, later, run, by rw [present]; exact Option.some_ne_none _, lists, ?_, opens, ?_⟩
  · intro housed
    obtain ⟨entry, same⟩ := housed.child present
    have target : resolve (topicDir ["data"] ".") = ["data"] := by decide
    have length := congrArg List.length same
    rw [List.length_append, List.length_singleton] at length
    change (resolve (topicDir ["data"] ".")).length = (resolve ["data"]).length + 1 at length
    revert length
    decide
  · rw [finds]
    split <;> rfl

end ConnectForge.Infra
