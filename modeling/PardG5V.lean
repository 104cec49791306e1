import PardG5V.AddrMapper.Traffic
import PardG5V.Cache.LruOrder
import PardG5V.Cache.Identity
import PardG5V.Cache.Private
import PardG5V.Cache.StoreCond
import PardG5V.Cache.Ordering
import PardG5V.Cache.Capacity
import PardG5V.Cache.LoadLocks
import PardG5V.Dram.Decode
import PardG5V.Dram.Bookkeeping
import PardG5V.Dram.Retries
import PardG5V.Dram.Reads
import PardG5V.Dram.Bus
import PardG5V.Dram.Writes
import PardG5V.Dram.Accounting
import PardG5V.Dram.Window
import PardG5V.Gm.Protocol
import PardG5V.Dev.Delivery
import PardG5V.Arch.WalkTags
import PardG5V.Dev.RegFile
import PardG5V.Mem.BridgeFlow
import PardG5V.Dev.DmaTraffic
import PardG5V.Dev.DmaCompletion
import PardG5V.Dev.IdeSelect
import PardG5V.Dev.IdeCommands
import PardG5V.Dev.Uart
import PardG5V.Dev.IdeDecode
import PardG5V.Dev.BusMaster
import PardG5V.Dev.EtherTap
