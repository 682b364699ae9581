import Merovingian.Database.ClientTransactions
import Merovingian.Database.SigningPairs
import Merovingian.Events.Membership
import Merovingian.Events.PowerLevelChain
import Merovingian.Events.RedactionAuth
import Merovingian.Federation.AddressSafety
import Merovingian.Federation.DispatchBooks
import Merovingian.Federation.MissingEvents
import Merovingian.Homeserver.AppserviceOrder
import Merovingian.Homeserver.CurrentStateResolution
import Merovingian.Homeserver.StreamPositions
import Merovingian.Homeserver.TokenMigration
import Merovingian.Http.RateLimitEngine
import Merovingian.Http.RequestHeadSafety
import Merovingian.Ipc.FederationFrames
import Merovingian.Sync.DepartureVisibility
import Merovingian.Sync.DeviceListDelta
import Merovingian.Sync.LongPollWakeups
import Merovingian.Sync.SlidingSyncList
