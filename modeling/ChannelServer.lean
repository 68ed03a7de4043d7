import ChannelServer.Objects
import ChannelServer.World
import ChannelServer.Manager
import ChannelServer.Placement
import ChannelServer.TradeFinish
import ChannelServer.TradeSteps
import ChannelServer.TradeCommit
import ChannelServer.TradeAborts
import ChannelServer.TradeReplies
import ChannelServer.TradeRuns
import ChannelServer.ItemDrop
import ChannelServer.ItemRuns
import ChannelServer.MitamaReunion
import ChannelServer.ZoneRequests
import ChannelServer.Packets
import ChannelServer.ItemSafety
import ChannelServer.Serve
import ChannelServer.ItemConservation
import ChannelServer.ExchangePairing
import ChannelServer.ClientIsolation
