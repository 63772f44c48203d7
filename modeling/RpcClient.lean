import RpcClient.Body.Arrangement
import RpcClient.Call.Event
import RpcClient.Call.Books
import RpcClient.Client.Event
import RpcClient.Scenario.Calls
import RpcClient.Scenario.Duplex
import RpcClient.Scenario.Framing
import RpcClient.Scenario.Network
import RpcClient.Stream.Exchange
import RpcClient.Proofs.Call.Coherent
import RpcClient.Proofs.Call.Outcome
import RpcClient.Proofs.Call.Books
import RpcClient.Proofs.Stream.FirstFrame
import RpcClient.Proofs.Connection.LifeCycle
import RpcClient.Proofs.Client.Move
import RpcClient.Proofs.Client.Shared
import RpcClient.Proofs.Binary.ReadBack
import RpcClient.Conversation
import RpcClient.Proofs.Stream.Reading
import RpcClient.Proofs.Conversation.Streams
import RpcClient.Proofs.Conversation.InTune
import RpcClient.Proofs.Client.Request
import RpcClient.Proofs.Conversation.Answered
import RpcClient.Client.Traffic
import RpcClient.Proofs.Connection.Traffic
import RpcClient.Proofs.Client.Course
import RpcClient.Proofs.Client.Traffic
import RpcClient.Proofs.Connection.Greeting
import RpcClient.Proofs.Connection.Polling
import RpcClient.Proofs.Client.Waiters
import RpcClient.Proofs.Client.Clock
import RpcClient.Proofs.Client.Deadline
import RpcClient.Proofs.Connection.FirstCause
import RpcClient.Proofs.Client.Shutdown
import RpcClient.Proofs.Stream.InOrder
import RpcClient.Proofs.Binary.Body
import RpcClient.Proofs.Binary.Cut
import RpcClient.Proofs.Peer.Scan
import RpcClient.Proofs.Client.Choice
import RpcClient.Proofs.Connection.Inbound
import RpcClient.Proofs.Json.Body
import RpcClient.Client.Send
import RpcClient.Proofs.Stream.Limit
import RpcClient.Proofs.Stream.InSync
import RpcClient.Proofs.Client.Send
import RpcClient.Proofs.Client.Queued
import RpcClient.Proofs.Client.Verdict
import RpcClient.Proofs.Binary.Accepted
import RpcClient.Proofs.Stream.Deadline
import RpcClient.Proofs.Stream.Parsing
import RpcClient.Proofs.Client.Load
import RpcClient.Proofs.Call.Numbers
