import MesonDecoy.Go
import MesonDecoy.State
import MesonDecoy.Lifecycle
import MesonDecoy.Invariant
import MesonDecoy.Store
import MesonDecoy.Retire
import MesonDecoy.Sweep
import MesonDecoy.Runs
import MesonDecoy.Reply
import MesonDecoy.LoopPacket
import MesonDecoy.System
import MesonDecoy.Replies
import MesonDecoy.Worker
import MesonDecoy.Timer
import MesonDecoy.DecoyPacket
import MesonDecoy.Durations
import MesonDecoy.Instance
