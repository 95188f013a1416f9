import Socks5d.Lib.Run
import Socks5d.Lib.Scanner
import Socks5d.Lib.Memory
import Socks5d.Buffer
import Socks5d.Lib.Queue
import Socks5d.ByteQueue
import Socks5d.Users
import Socks5d.Selector
import Socks5d.Ownership
import Socks5d.Pop3Sniffer
import Socks5d.Client
import Socks5d.Handshake
import Socks5d.Clients
import Socks5d.Server
import Socks5d.Frame
import Socks5d.Closing
import Socks5d.Outcomes
import Socks5d.Locality
import Socks5d.Control
import Socks5d.Progress
import Socks5d.Engine
import Socks5d.Invariant
import Socks5d.Story
import Socks5d.Lifetime
import Socks5d.Wakeup
import Socks5d.Authentication
import Socks5d.Integrity
import Socks5d.Destination
import Socks5d.Resolution
import Socks5d.Ledger
import Socks5d.Descriptors
import Socks5d.MgmtProtocol
import Socks5d.Mgmt
import Socks5d.Lexing
import Socks5d.Turns
import Socks5d.MgmtGate
import Socks5d.Segmentation
import Socks5d.Accounting
import Socks5d.SelectorTables
import Socks5d.Lib.Wire
import Socks5d.Messages
import Socks5d.Decoding
import Socks5d.Cuts
import Socks5d.Pipelining
import Socks5d.Replies
import Socks5d.Shutdown
import Socks5d.Sniffing
import Socks5d.Requests
import Socks5d.Quitting
import Socks5d.Answers
import Socks5d.Accounts
import Socks5d.Listing
import Socks5d.Numbers
import Socks5d.Acceptance
import Socks5d.Login
import Socks5d.LineStarts
import Socks5d.Fallback
import Socks5d.Admission
import Socks5d.Iteration
import Socks5d.SelectorBounds
import Socks5d.Statistics
import Socks5d.Capture
import Socks5d.Response
import Socks5d.Lib.Layout
import Socks5d.PeerAddress
import Socks5d.AccessLog
import Socks5d.ResponseBuf
import Socks5d.SniffBounds
import Socks5d.Window
import Socks5d.Capacity
import Socks5d.Lib.ByteSet
import Socks5d.Lib.GotoScanner
import Socks5d.Automaton
import Socks5d.Translation
import Socks5d.Lib.Parties
import Socks5d.Settings
import Socks5d.System
import Socks5d.Authority
import Socks5d.Compiled
import Socks5d.Tool
import Socks5d.Dialogue
import Socks5d.Exchange
import Socks5d.Completion
