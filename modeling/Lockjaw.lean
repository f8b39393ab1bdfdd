import Lockjaw.Smp.Runs
import Lockjaw.Smp.TicketLock
import Lockjaw.Cap.Mappings
import Lockjaw.Mm.PageAlloc
import Lockjaw.Wait.Deadline
import Lockjaw.Wait.Answers
import Lockjaw.User.DisplayClients
import Lockjaw.User.VirtioBlk
import Lockjaw.User.ConsoleUart
import Lockjaw.User.PosixVa
import Lockjaw.Fat.Path
import Lockjaw.User.PosixRead
import Lockjaw.Vmem.Query
import Lockjaw.Vmem.Map
import Lockjaw.Vmem.Scratch
import Lockjaw.Cap.ChildSpace
import Lockjaw.Xtask.Depth
import Lockjaw.Xtask.Wires
