import SerialNet.Dhcp.Allocation
import SerialNet.Dhcp.Discipline
import SerialNet.Dhcp.Stale
import SerialNet.Dmem.Size
import SerialNet.Dns.Match
import SerialNet.Dns.Reply
import SerialNet.Flash.Retry
import SerialNet.Link.Balance
import SerialNet.Lwip.Timeout
import SerialNet.Uart.AtFraming
import SerialNet.Uart.Pipeline
import SerialNet.Web.ConnTable
import SerialNet.Web.FileId
import SerialNet.Web.SendFile
import SerialNet.Param.AtArgs
import SerialNet.Param.ConfigRun
import SerialNet.Param.RequestRun
import SerialNet.Param.Broadcast
import SerialNet.Param.FormAtomic
import SerialNet.Param.FormDecode
import SerialNet.Param.IpText
import SerialNet.Param.PageBuilder
import SerialNet.Param.PageIdentity
import SerialNet.Param.SoftAp
import SerialNet.Param.Setters
import SerialNet.Param.Trim
import SerialNet.Util.Checksum
import SerialNet.Util.Itoa
import SerialNet.Uart.Chunks
import SerialNet.Lwip.Ping
import SerialNet.Util.Queue
import SerialNet.Uart.NetRecv
import SerialNet.Web.UpdateRuns
import SerialNet.Ucos.Runs
import SerialNet.Ucos.TimerRuns
import SerialNet.Lwip.CyclicTimers
import SerialNet.Lwip.MemRuns
