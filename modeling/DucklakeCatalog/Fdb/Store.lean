import DucklakeCatalog.File.Mutation

/-! The catalog as its FoundationDB transactions see it. A transaction reads and
writes one state; the orders of its versionstamps count the committed ones. -/
namespace DucklakeCatalog.Fdb

open KeyedStore

abbrev CommitAttemptId := Nat

structure InlineRowKey where
  tableId : TableId
  schemaId : SchemaId
  rowId : Nat
  deriving DecidableEq, Repr

def InlineRowKey.components (key : InlineRowKey) : Nat ×ₗ Nat ×ₗ Nat :=
  toLex (key.tableId, toLex (key.schemaId, key.rowId))

theorem InlineRowKey.components_injective : Function.Injective InlineRowKey.components := by
  intro left right same
  cases left
  cases right
  simp_all [components]

instance : LinearOrder InlineRowKey := LinearOrder.lift' InlineRowKey.components InlineRowKey.components_injective

structure InlineCurrentRow where
  beginOrder : CatalogOrderId
  beginSequence : RawSnapshotSequence
  payload : List UInt8
  deriving DecidableEq, Repr

structure SchemaRow where
  schemaId : SchemaId
  parentSchemaId : Option SchemaId := none
  uuid : String := ""
  name : String
  path : String := ""
  validity : ValidityWindow
  deriving DecidableEq, Repr

/-- The shared key space and the key families that only this backend writes. -/
structure FdbStore where
  kv : CatalogKv := {}
  commitAttempt : OrderedMap CommitAttemptId CatalogOrderId := .empty
  inlineFlushFence : OrderedMap TableId Nat := .empty
  inlineLiveRow : OrderedMap InlineRowKey RawSnapshotSequence := .empty
  inlineCurrentRow : OrderedMap InlineRowKey InlineCurrentRow := .empty
  inlineNextRowId : OrderedMap (TableId ×ₗ SchemaId) Nat := .empty
  schemaObject : OrderedMap (SchemaId ×ₗ CatalogOrderId) SchemaRow := .empty
  currentTableName : OrderedMap (SchemaId ×ₗ String) TableId := .empty

/-- The order of the last committed transaction. -/
def FdbStore.lastOrder (store : FdbStore) : CatalogOrderId := store.kv.nextOrder

/-- The order the next committed transaction gets. -/
def FdbStore.commitOrder (store : FdbStore) : CatalogOrderId := store.kv.generatedOrderId

theorem FdbStore.lastOrder_lt (store : FdbStore) : store.lastOrder < store.commitOrder := Nat.lt_succ_self _

/-- An order field that a caller leaves to the commit. In a row that is still
being staged it stands for the versionstamp placeholder. -/
def resolveOrder (order given : CatalogOrderId) : CatalogOrderId :=
  if given = autoOrder then order else given

end DucklakeCatalog.Fdb
