import Protozoa.Lib.LinkedTree
import Protozoa.Lib.RedBlack
import Protozoa.Lib.SortedBag
import Protozoa.Lib.BitField
import Protozoa.Lib.Scan
import Protozoa.Lib.Ledger
import Protozoa.Lib.Fifo
import Protozoa.Lib.LinkedList
import Protozoa.Lib.Rounding
import Protozoa.Lib.Scanf
import Protozoa.Pool
import Protozoa.Pool.Freelist
import Protozoa.Clump.RbTree
import Protozoa.Clump.Rotate
import Protozoa.Clump.Layout
import Protozoa.Clump.Descent
import Protozoa.Clump.Insert
import Protozoa.Clump.Remove
import Protozoa.Clump.Refine
import Protozoa.Clump.Collection
import Protozoa.Pool.Slots
import Protozoa.Timeval
import Protozoa.Ccpacket
import Protozoa.Buffer
import Protozoa.Buffer.Heap
import Protozoa.Buffer.Room
import Protozoa.Fields
import Protozoa.Setters
import Protozoa.Message
import Protozoa.Ccreader
import Protozoa.Ccnode
import Protozoa.Channel
import Protozoa.Descriptors.Calls
import Protozoa.Descriptors.Valid
import Protozoa.Descriptors.Destroy
import Protozoa.Protocol.Pelco
import Protozoa.Protocol.PelcoD
import Protozoa.Protocol.PelcoP
import Protozoa.Protocol.Vicon
import Protozoa.Protocol.Manchester
import Protozoa.Protocol.Infinova
import Protozoa.Protocol.Axis
import Protozoa.Protocol.Joystick
import Protozoa.Protocol.Streams
import Protozoa.Protocol.ReadBack
import Protozoa.Protocol.PelcoCodec
import Protozoa.Protocol.PelcoCanonical
import Protozoa.Protocol.PelcoCodecs
import Protozoa.Protocol.PassThrough
import Protozoa.Protocol.PelcoAgree
import Protozoa.Protocol.Menu
import Protozoa.Protocol.StorePreset
import Protozoa.Protocol.AxisGrammar
import Protozoa.Protocol.AxisMotion
import Protozoa.Protocol.AxisChannel
import Protozoa.Protocol.AxisTransfer
import Protozoa.Engine.Timer
import Protozoa.Engine.Writer
import Protozoa.Engine.Defer
import Protozoa.Engine.Queue
import Protozoa.Engine.Steps
import Protozoa.Engine.Entry
import Protozoa.Engine.Latest
import Protozoa.Engine.Due
import Protozoa.Engine.Armed
import Protozoa.Engine.Share
import Protozoa.Engine.Clock
import Protozoa.Engine.Output
import Protozoa.Engine.Isolation
import Protozoa.Protocol.PressPreset
import Protozoa.Protocol.SwitchCamera
import Protozoa.Protocol.ViconRoundTrip
import Protozoa.Protocol.ViconToggle
import Protozoa.Engine.Once
import Protozoa.Engine.Toggle
import Protozoa.Protocol.ManchesterRoundTrip
import Protozoa.Protocol.ManchesterAttribution
import Protozoa.Protocol.InfinovaFraming
import Protozoa.Engine.Passes
import Protozoa.Engine.FullBuffer
import Protozoa.Engine.Gap
import Protozoa.Engine.Repeat
import Protozoa.Engine.Held
import Protozoa.Engine.Silence
import Protozoa.Engine.Inert
import Protozoa.Engine.Routing
import Protozoa.Protocol.Wires
import Protozoa.Protocol.ViconMotion
import Protozoa.Protocol.Deliver
import Protozoa.Protocol.Bounds
import Protozoa.Protocol.Traffic
import Protozoa.Protocol.Relay
import Protozoa.Protocol.Checked
import Protozoa.Protocol.Resync
import Protozoa.Protocol.AxisRequest
import Protozoa.Protocol.AxisCamera
import Protozoa.Protocol.PresetKept
import Protozoa.Config
import Protozoa.Config.Valid
import Protozoa.Config.Comments
import Protozoa.Config.Routes
import Protozoa.Program
import Protozoa.Program.Moves
import Protozoa.Program.Wire
import Protozoa.Program.Runs
import Protozoa.Program.Progress
import Protozoa.Program.Reload
import Protozoa.Program.Silence
