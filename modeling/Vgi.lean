import Vgi.Base64
import Vgi.Catalog.Digest
import Vgi.Client.CacheCaps
import Vgi.Client.ExchangeProtocol
import Vgi.Client.Freshness
import Vgi.Client.HttpAuth
import Vgi.Client.Launcher
import Vgi.Client.PoolIdle
import Vgi.Client.Projection
import Vgi.Client.RetryDdl
import Vgi.Dispatch.FinalizeDelivery
import Vgi.Dispatch.Homes
import Vgi.Dispatch.Provenance
import Vgi.Dispatch.RefusedTurn
import Vgi.Dispatch.Remap
import Vgi.Dispatch.SplitCallers
import Vgi.Dispatch.StateMap
import Vgi.Numeric
import Vgi.Pushdown.ColumnDomain
import Vgi.Pushdown.Convergence
import Vgi.Pushdown.DeltaHistory
import Vgi.Pushdown.Partition
import Vgi.Snapshot.Audience
import Vgi.Snapshot.S3Register
import Vgi.Snapshot.Trust
import Vgi.Storage.AtMostOnce
import Vgi.Storage.Interchange
import Vgi.Storage.QueueDelivery
import Vgi.Stored.Snapshot
import Vgi.Window.Frames
import Vgi.Window.Reinit
