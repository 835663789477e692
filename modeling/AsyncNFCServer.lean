import AsyncNFCServer.TCP.Framing
import AsyncNFCServer.TCP.Session
import AsyncNFCServer.ReaderHandler.UserIndex
import AsyncNFCServer.ReaderHandler.Spellings
import AsyncNFCServer.ReaderHandler.Restart
import AsyncNFCServer.ReaderHandler.Revocation
import AsyncNFCServer.ReaderHandler.Locking
import AsyncNFCServer.ReaderHandler.Crash
import AsyncNFCServer.ReaderHandler.Commands
import AsyncNFCServer.ReaderHandler.Saving
import AsyncNFCServer.ReaderHandler.Levels
import AsyncNFCServer.ReaderHandler.Undo
import AsyncNFCServer.ReaderHandler.Isolation
import AsyncNFCServer.ReaderHandler.DiskFrame
import AsyncNFCServer.ReaderHandler.DoorNames
import AsyncNFCServer.ReaderHandler.Keys
import AsyncNFCServer.ReaderHandler.Startup
import AsyncNFCServer.Client.Protocol
import AsyncNFCServer.Client.Connect
import AsyncNFCServer.Client.MainLoop
import AsyncNFCServer.Client.Stream
import AsyncNFCServer.Client.Scans
import AsyncNFCServer.TCP.Replies
import AsyncNFCServer.TCP.TcpServer
import AsyncNFCServer.ReaderHandler.Shutdown
import AsyncNFCServer.TCP.Workers
import AsyncNFCServer.TCP.Listener
import AsyncNFCServer.TCP.Clients
import AsyncNFCServer.ReaderHandler.Provenance
import AsyncNFCServer.Client.Polls
import AsyncNFCServer.PN532.Gpio
import AsyncNFCServer.Client.TurnedAway
import AsyncNFCServer.Client.Safety
