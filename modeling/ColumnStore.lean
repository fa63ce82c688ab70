import ColumnStore.AggStatistics
import ColumnStore.AutoincrementManager
import ColumnStore.AuxScan
import ColumnStore.BrmJournal
import ColumnStore.ChunkShifting
import ColumnStore.CommandUndo
import ColumnStore.CopyLockProtocol
import ColumnStore.DecimalComparison
import ColumnStore.DecimalRounding
import ColumnStore.ExtentLookup
import ColumnStore.ExtentPlacement
import ColumnStore.FilterCompilation
import ColumnStore.FilterConstants
import ColumnStore.GroupingHash
import ColumnStore.MasterNode
import ColumnStore.RangeFrames
import ColumnStore.RowAggMap
import ColumnStore.RowSpillSafety
import ColumnStore.RuntimePartitioning
import ColumnStore.SessionManagerServer
import ColumnStore.SmallOuterJoin
import ColumnStore.SnapshotSafety
import ColumnStore.SpaceReuse
import ColumnStore.TimeOrder
import ColumnStore.TupleJoinLoop
import ColumnStore.TupleJoiner
import ColumnStore.VbbmGrowth
import ColumnStore.VersionQueries
import ColumnStore.WindowSort
import ColumnStore.WorkerMessageAgreement
