import Singularity.PhysicalMemory.BootReservations
import Singularity.PhysicalMemory.IdentityMap
import Singularity.Paging.DemandFault
import Singularity.Paging.Shootdown
import Singularity.KernelHeap.SlabThreads
import Singularity.KernelHeap.Pointers
import Singularity.KernelHeap.AlignedRuns
import Singularity.ObjectManager.HandleThreads
import Singularity.ObjectManager.Capabilities
import Singularity.ObjectManager.Delivery
import Singularity.ObjectManager.Container
import Singularity.Sync.Mutex
import Singularity.Sync.RwLockQueues
import Singularity.ObjectManager.ChannelReaders
import Singularity.Sync.Rcu
import Singularity.Process.Exclusion
import Singularity.Process.Lifecycle
import Singularity.Storage.CacheThreads
import Singularity.ObjectManager.VolatileBlob
import Singularity.Storage.GptNames
import Singularity.Storage.VectorLengths
import Singularity.Paging.MapPage
import Singularity.ObjectManager.Ports
import Singularity.Paging.SysWrite
import Singularity.Storage.Mounting
import Singularity.Storage.Virtqueue
import Singularity.Process.NextTask
import Singularity.Libc.MemoryRoutines
import Singularity.Sync.SpinLock
import Singularity.Drivers.LocalTime
import Singularity.Drivers.TableWalks
