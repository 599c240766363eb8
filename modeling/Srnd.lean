import Srnd.Time
import Srnd.Redis.ZSet
import Srnd.Redis.Schema
import Srnd.Redis.Register
import Srnd.Redis.Delete
import Srnd.Redis.Run
import Srnd.Redis.Orderings
import Srnd.Redis.ThreadScores
import Srnd.Redis.Links
import Srnd.Redis.NNTPNumbers
import Srnd.Redis.IPBan
import Srnd.Redis.Bans
import Srnd.Redis.ModKeys
import Srnd.Redis.Queries
import Srnd.Redis.Hashes
import Srnd.Redis.EncAddress
import Srnd.Message.Body
import Srnd.Message.Envelopes
import Srnd.Message.Wire
import Srnd.Message.RoundTrip
import Srnd.Message.Verify
import Srnd.Message.PartLimit
import Srnd.Message.Signed
import Srnd.Message.Multipart
import Srnd.Redis.Nuke
import Srnd.Redis.Pages
import Srnd.Redis.Lookups
import Srnd.Redis.History
import Srnd.Redis.PostTimes
import Srnd.Store.Dirs
import Srnd.Store.System
import Srnd.Store.CreateFile
import Srnd.Store.Ingest
import Srnd.Config
import Srnd.Nacl.Sign
