import Avrtos.AtomicCas
import Avrtos.CancelWait
import Avrtos.Condvar
import Avrtos.CrcRemainders
import Avrtos.DlistSequences
import Avrtos.EventRuns
import Avrtos.FifoDelivery
import Avrtos.FlagsDelivery
import Avrtos.I2cDevices
import Avrtos.I2cRead
import Avrtos.I2cWrite
import Avrtos.JoinRuns
import Avrtos.Mcp2515Buffers
import Avrtos.MsgqPoll
import Avrtos.MutexNesting
import Avrtos.PollReturns
import Avrtos.Prng
import Avrtos.Reschedule
import Avrtos.RingBuffer
import Avrtos.SchedLock
import Avrtos.SdBlocks
import Avrtos.SdRelease
import Avrtos.Serial
import Avrtos.Slab
import Avrtos.SlistQueues
import Avrtos.Spi
import Avrtos.Tdqueue
import Avrtos.ThreadStart
import Avrtos.TickReads
import Avrtos.TimedWaits
import Avrtos.TimerPrescaler
import Avrtos.TimerSchedule
import Avrtos.Usart
import Avrtos.UsartRx
import Avrtos.UsartTx
import Avrtos.WaitCauses
import Avrtos.WaitQueueRuns
import Avrtos.WorkqueueRuns
