import ConnectForge.Data.Keyed
import ConnectForge.Types.Connector

namespace ConnectForge

open Data

/-! The registry that makes connector activity observable. -/

structure ConnectorRegistry where
  statuses : List ConnectorStatus
  deadLetters : List DeadLetterRecord

namespace ConnectorRegistry

def new : ConnectorRegistry := ⟨[], []⟩

/-- Insert or update a connector's status, keyed by id. -/
def upsertStatus (registry : ConnectorRegistry) (status : ConnectorStatus) : ConnectorRegistry :=
  { registry with statuses := upsert ConnectorStatus.id status registry.statuses }

def extendDeadLetters (registry : ConnectorRegistry) (records : List DeadLetterRecord) :
    ConnectorRegistry :=
  { registry with deadLetters := registry.deadLetters ++ records }

def setDeadLetters (registry : ConnectorRegistry) (records : List DeadLetterRecord) :
    ConnectorRegistry :=
  { registry with deadLetters := records }

end ConnectorRegistry

/-- An update of the registry. -/
inductive RegistryUpdate where
  | upsertStatus (status : ConnectorStatus)
  | extendDeadLetters (records : List DeadLetterRecord)
  | setDeadLetters (records : List DeadLetterRecord)

namespace RegistryUpdate

def apply (registry : ConnectorRegistry) : RegistryUpdate → ConnectorRegistry
  | upsertStatus status => registry.upsertStatus status
  | extendDeadLetters records => registry.extendDeadLetters records
  | setDeadLetters records => registry.setDeadLetters records

def status? : RegistryUpdate → Option ConnectorStatus
  | upsertStatus status => some status
  | extendDeadLetters _ => none
  | setDeadLetters _ => none

end RegistryUpdate

namespace ConnectorRegistry

def afterAll (updates : List RegistryUpdate) : ConnectorRegistry :=
  updates.foldl RegistryUpdate.apply .new

theorem afterAll_snoc (updates : List RegistryUpdate) (update : RegistryUpdate) :
    afterAll (updates ++ [update]) = update.apply (afterAll updates) := by
  simp [afterAll]

theorem afterAll_statuses (updates : List RegistryUpdate) :
    (afterAll updates).statuses =
      upserts ConnectorStatus.id (updates.filterMap RegistryUpdate.status?) := by
  induction updates using List.reverseRecOn with
  | nil => rfl
  | append_singleton updates update ih =>
      rw [afterAll_snoc, List.filterMap_append]
      cases update with
      | upsertStatus status => simp [RegistryUpdate.apply, RegistryUpdate.status?, upsertStatus, ih]
      | extendDeadLetters records =>
          rw [List.filterMap_cons_none rfl]
          simp [RegistryUpdate.apply, extendDeadLetters, ih]
      | setDeadLetters records =>
          rw [List.filterMap_cons_none rfl]
          simp [RegistryUpdate.apply, setDeadLetters, ih]

end ConnectorRegistry

/-- However the registry was updated, it lists every connector that reported a
status once, in the order of their first reports, with its latest one. -/
theorem registry_latest (updates : List RegistryUpdate) :
    (ConnectorRegistry.afterAll updates).statuses.map ConnectorStatus.id =
        ((updates.filterMap RegistryUpdate.status?).map ConnectorStatus.id).eraseDups ∧
      ∀ connector, (ConnectorRegistry.afterAll updates).statuses.find? (fun status => status.id = connector) =
        lastUnder ConnectorStatus.id id (updates.filterMap RegistryUpdate.status?) connector := by
  rw [ConnectorRegistry.afterAll_statuses]
  exact ⟨map_upserts _, find?_upserts _⟩

end ConnectForge
