import ParkingService.Gate.Abort
import ParkingService.Gate.Bridge
import ParkingService.Gate.Debounce
import ParkingService.Gate.FullLed
import ParkingService.Gate.HoldOpen
import ParkingService.Gate.Load
import ParkingService.Gate.Motor
import ParkingService.Gate.UserControl
import ParkingService.Gate.Power
import ParkingService.Gate.Progress
import ParkingService.Gate.Reload
import ParkingService.Gate.SameClose
import ParkingService.Gate.Sampling
import ParkingService.Gate.Signals
import ParkingService.Gate.UserCapacity
import ParkingService.Gate.UserNode
import ParkingService.Gate.Vehicle
import ParkingService.Monitor.Available
import ParkingService.Monitor.Independence
import ParkingService.Monitor.StatusModule
import ParkingService.Network.Delivery
import ParkingService.Slot.Crosstalk
import ParkingService.Slot.Law
import ParkingService.Slot.Load
import ParkingService.Slot.Progress
import ParkingService.Slot.Record
import ParkingService.Slot.Reload
import ParkingService.Slot.Trigger
import ParkingService.System.Settle
