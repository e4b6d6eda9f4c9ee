import AtomDrivers.Led.Remove
import AtomDrivers.Led.Duty
import AtomDrivers.FingerButton.Disable
import AtomDrivers.FingerButton.Probe
import AtomDrivers.FingerButton.Rebind
import AtomDrivers.LcmInfo.Semaphore
import AtomDrivers.LcmInfo.Seek
import AtomDrivers.LcmInfo.Fault
import AtomDrivers.LcmInfo.Refinement
import AtomDrivers.LcmInfo.Load
import AtomDrivers.Camera.Compat
import AtomDrivers.Camera.I2cMode
import AtomDrivers.Camera.SyncTiming
import AtomDrivers.Camera.Blind
import AtomDrivers.Camera.StaleBytes
import AtomDrivers.Camera.Power
import AtomDrivers.Camera.Bounds
import AtomDrivers.Camera.Addresses
import AtomDrivers.Camera.Waiter
import AtomDrivers.Camera.Listing
import AtomDrivers.Camera.Select
import AtomDrivers.Camera.Transfers
import AtomDrivers.Camera.Release
import AtomDrivers.Pwm.Client
import AtomDrivers.Procfs.Read
import AtomDrivers.Charger.Charging
import AtomDrivers.Lloop.Calls
import AtomDrivers.Lloop.Detach
import AtomDrivers.Lloop.ReadOnly
import AtomDrivers.Lloop.Attach
import AtomDrivers.TzMem.Request
import AtomDrivers.Lloop.Transfer
import AtomDrivers.Lloop.Init
import AtomDrivers.TzMem.Probe
import AtomDrivers.Charger.Settings
import AtomDrivers.Charger.Ncp1854
import AtomDrivers.Camera.Supply
import AtomDrivers.Camera.RegDebug
