import SocketSpeak.CLib.Bytes
import SocketSpeak.CLib.Stdio
import SocketSpeak.CLib.Socket
import SocketSpeak.CLib.Blocking
import SocketSpeak.CLib.Sys
import SocketSpeak.CLib.Simulation
import SocketSpeak.CLib.Lists
import SocketSpeak.CLib.Interleave
import SocketSpeak.CLib.Fifo
import SocketSpeak.CLib.SwapRemove
import SocketSpeak.CLib.Sequencer
import SocketSpeak.CLib.Lines
import SocketSpeak.CLib.Reservoir
import SocketSpeak.CLib.StrBuf
import SocketSpeak.CLib.Files
import SocketSpeak.CLib.Loop
import SocketSpeak.CLib.Shell
import SocketSpeak.CLib.Path
import SocketSpeak.CLib.Heap
import SocketSpeak.CLib.LinkedList
import SocketSpeak.Lmp.Wire
import SocketSpeak.Lmp.Recv
import SocketSpeak.Lmp.RoundTrip
import SocketSpeak.Lmp.Acceptance
import SocketSpeak.Lmp.Stream
import SocketSpeak.Lmp.ShortSend
import SocketSpeak.Lmp.Live
import SocketSpeak.Lmp.TwoThreads
import SocketSpeak.Peer.Discovery
import SocketSpeak.Peer.Directory
import SocketSpeak.Peer.Stickers
import SocketSpeak.Peer.Overlay
import SocketSpeak.Peer.Chat
import SocketSpeak.Peer.Acts
import SocketSpeak.Peer.UserDirectory
import SocketSpeak.Peer.StickerFile
import SocketSpeak.Peer.Restart
import SocketSpeak.Peer.StickerLoop
import SocketSpeak.Peer.Capacity
import SocketSpeak.Peer.Transfer
import SocketSpeak.Peer.ChatNet
import SocketSpeak.Peer.Handshake
import SocketSpeak.Peer.Delivery
import SocketSpeak.Peer.Names
import SocketSpeak.Peer.StableUid
import SocketSpeak.Peer.Nickname
import SocketSpeak.Peer.SendFailure
import SocketSpeak.Peer.PlainText
import SocketSpeak.Peer.TypedLines
import SocketSpeak.Peer.Deeds
import SocketSpeak.Peer.Renaming
import SocketSpeak.Peer.Ending
import SocketSpeak.Peer.Settling
import SocketSpeak.Peer.Archive
import SocketSpeak.Chat.Registry
import SocketSpeak.Chat.Dispatch
import SocketSpeak.Group.Table
import SocketSpeak.Group.Hangman
import SocketSpeak.Group.History
import SocketSpeak.Group.HistoryHandles
import SocketSpeak.Group.GroupDiscovery
import SocketSpeak.Group.ServerDirectory
import SocketSpeak.Group.CreatedDirectory
import SocketSpeak.Group.User
import SocketSpeak.Group.Server
import SocketSpeak.Group.Handled
import SocketSpeak.Group.Clients
import SocketSpeak.Group.Net
import SocketSpeak.Group.Replica
import SocketSpeak.Group.Attribution
import SocketSpeak.Group.InRange
import SocketSpeak.Group.Progress
import SocketSpeak.Group.Bounds
import SocketSpeak.Group.Alignment
import SocketSpeak.Group.Relay
import SocketSpeak.Group.Loading
import SocketSpeak.Group.Forgery
import SocketSpeak.Group.LoadClient
import SocketSpeak.Group.LoadNet
import SocketSpeak.Group.HangmanTurn
import SocketSpeak.Group.HangmanRules
import SocketSpeak.Group.HangmanFinish
import SocketSpeak.Group.WordChoice
import SocketSpeak.Group.Game
import SocketSpeak.Group.Lifecycle
import SocketSpeak.Group.Players
import SocketSpeak.Group.PlayerList
import SocketSpeak.Group.Responses
import SocketSpeak.Group.ClientIndex
import SocketSpeak.Group.PollRound
import SocketSpeak.Group.PollLoop
import SocketSpeak.Group.Rounds
import SocketSpeak.Group.Registration
import SocketSpeak.Group.TotalOrder
import SocketSpeak.Group.CatchUp
import SocketSpeak.Group.HangmanText
import SocketSpeak.Group.HangmanBuffers
import SocketSpeak.Group.Understood
import SocketSpeak.Group.Silence
