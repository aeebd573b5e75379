import SistemasDistribuidos.Library.Machine
import SistemasDistribuidos.Library.SlotArray
import SistemasDistribuidos.Library.CString
import SistemasDistribuidos.Library.Framing
import SistemasDistribuidos.Library.Pool
import SistemasDistribuidos.Library.TextFile
import SistemasDistribuidos.Library.Stdio
import SistemasDistribuidos.Library.PubSub
import SistemasDistribuidos.Practica1.MultiHilo
import SistemasDistribuidos.Practica1.Batches
import SistemasDistribuidos.Practica1.Dialogue
import SistemasDistribuidos.Practica1.Greetings
import SistemasDistribuidos.Practica1.Greeted
import SistemasDistribuidos.Practica1.Simple
import SistemasDistribuidos.Practica1.NoBloqueante
import SistemasDistribuidos.Practica2.Shutdown
import SistemasDistribuidos.Practica2.Ready
import SistemasDistribuidos.Practica2.Progress
import SistemasDistribuidos.Practica2.Ordering
import SistemasDistribuidos.Practica2.Completion
import SistemasDistribuidos.Practica3.DoRequest
import SistemasDistribuidos.Practica3.Locks
import SistemasDistribuidos.Practica3.Increments
import SistemasDistribuidos.Practica3.Responses
import SistemasDistribuidos.Practica3.Exclusion
import SistemasDistribuidos.Practica3.Sleeping
import SistemasDistribuidos.Practica3.Ratio
import SistemasDistribuidos.Practica3.Output
import SistemasDistribuidos.Practica3.Recovery
import SistemasDistribuidos.Practica3.Accepting
import SistemasDistribuidos.Practica3.Slots
import SistemasDistribuidos.Practica3.Wakeups
import SistemasDistribuidos.Practica3.Termination
import SistemasDistribuidos.Practica3.Answers
import SistemasDistribuidos.Practica3.Service
import SistemasDistribuidos.Practica3.Draining
import SistemasDistribuidos.Practica3.Client
import SistemasDistribuidos.Practica3.Session
import SistemasDistribuidos.Practica3.Lines
import SistemasDistribuidos.Practica3.Served
import SistemasDistribuidos.Practica4.Registry
import SistemasDistribuidos.Practica4.Topics
import SistemasDistribuidos.Practica4.Arrays
import SistemasDistribuidos.Practica4.Handlers
import SistemasDistribuidos.Practica4.Account
import SistemasDistribuidos.Practica4.Members
import SistemasDistribuidos.Practica4.Consistency
import SistemasDistribuidos.Practica4.Registering
import SistemasDistribuidos.Practica4.Unregistering
import SistemasDistribuidos.Practica4.Atomic
import SistemasDistribuidos.Practica4.Serialisability
import SistemasDistribuidos.Practica4.Publish
import SistemasDistribuidos.Practica4.Issued
import SistemasDistribuidos.Practica4.Barrier
import SistemasDistribuidos.Practica4.Modes
import SistemasDistribuidos.Practica4.Justo
import SistemasDistribuidos.Practica4.Order
import SistemasDistribuidos.Practica4.Broker
import SistemasDistribuidos.Practica4.Blocking
import SistemasDistribuidos.Practica4.Calm
import SistemasDistribuidos.Practica4.Window
import SistemasDistribuidos.Practica4.Delivery
import SistemasDistribuidos.Practica4.Receive
import SistemasDistribuidos.Practica4.Publisher
import SistemasDistribuidos.Practica4.Network
import SistemasDistribuidos.Practica4.Connection
import SistemasDistribuidos.Practica4.Deregistration
import SistemasDistribuidos.Practica4.Capacity
import SistemasDistribuidos.Practica4.Limits
import SistemasDistribuidos.Practica4.Admission
import SistemasDistribuidos.Practica4.History
import SistemasDistribuidos.Practica4.Messages
import SistemasDistribuidos.Library.Layout
import SistemasDistribuidos.Practica4.Structs
import SistemasDistribuidos.Practica4.Exchange
import SistemasDistribuidos.Practica4.Inbox
import SistemasDistribuidos.Practica4.Wire
import SistemasDistribuidos.Practica4.Relay
import SistemasDistribuidos.Practica4.Traffic
import SistemasDistribuidos.Practica4.Conduct
import SistemasDistribuidos.Practica4.Linked
import SistemasDistribuidos.Practica4.Screens
import SistemasDistribuidos.Practica4.Leaving
