import DucklakeCatalog.Run.DeleteFileReferences
import DucklakeCatalog.Run.TimeTravel
import DucklakeCatalog.Run.InlineDeletions
import DucklakeCatalog.Run.InlineFeed
import DucklakeCatalog.Run.InsertionFeed
import DucklakeCatalog.Run.DeleteFileTimeline
import DucklakeCatalog.Run.RowIds
import DucklakeCatalog.Run.PartitionLookups
import DucklakeCatalog.Run.TableListings
import DucklakeCatalog.Wire.Recovery
import DucklakeCatalog.Run.FdbDeleters
import DucklakeCatalog.Run.FdbInlineDeletions
import DucklakeCatalog.Run.FdbInlineRows
import DucklakeCatalog.Run.FdbOrders
import DucklakeCatalog.Run.FdbTableRaces
import DucklakeCatalog.Fdb.Compaction
import DucklakeCatalog.Inline.PayloadCleanup
import DucklakeCatalog.Inline.RowDeletes
import DucklakeCatalog.Run.InlinePayloadCleanup
import DucklakeCatalog.Inline.FlushCompletion
import DucklakeCatalog.Run.FlushCompletion
import DucklakeCatalog.Snapshot.ReadContext
import DucklakeCatalog.Run.SnapshotIndexes
import DucklakeCatalog.Run.ExpiredSnapshots
import DucklakeCatalog.Attempt.AssembledTables
import DucklakeCatalog.Run.TableIds
import DucklakeCatalog.Run.FileIds
import DucklakeCatalog.Run.SnapshotSequences
import DucklakeCatalog.Run.DroppedTables
import DucklakeCatalog.Run.OrphanCleanup
import DucklakeCatalog.Run.SchemaVersions
import DucklakeCatalog.Run.ChangesMade
import DucklakeCatalog.Run.PartitionPruning
import DucklakeCatalog.Stats.GlobalBounds
import DucklakeCatalog.Wire.RuntimePages
import DucklakeCatalog.Run.CurrentFileScans
import DucklakeCatalog.Run.DeletionContexts
import DucklakeCatalog.Run.FdbImmutableMetadata
import DucklakeCatalog.Wire.VersionstampedKeys
import DucklakeCatalog.Wire.InlineChunks
import DucklakeCatalog.Inline.RepeatedRowIds
import DucklakeCatalog.File.DuplicateSuppression
import DucklakeCatalog.Wire.ScanPages
import DucklakeCatalog.Wire.SchemaVersionLookups
import DucklakeCatalog.Run.UniqueNames
import DucklakeCatalog.File.CleanupCutoff
import DucklakeCatalog.Stats.ScalarSpellings
import DucklakeCatalog.Fdb.MergeRowIds
import DucklakeCatalog.Fdb.MergeStats
import DucklakeCatalog.ByteCodec.EscapedStrings
import DucklakeCatalog.Wire.PhysicalKeys
import DucklakeCatalog.Wire.UnambiguousKeys
import DucklakeCatalog.Table.ColumnDrops
import DucklakeCatalog.Snapshot.CatalogPayload
import DucklakeCatalog.Cache.Accounting
import DucklakeCatalog.Stats.MirrorStats
import DucklakeCatalog.Stats.NestedStats
import DucklakeCatalog.Run.Conflicts
import DucklakeCatalog.Run.CommitRetries
