import CppGossip.Transition.Run
import CppGossip.Transition.Since
import CppGossip.Collection.HashMap
import CppGossip.Collection.SwapRemove
import CppGossip.Order.Register
import CppGossip.Broadcast.Queue
import CppGossip.Gossiper.Handlers
import CppGossip.Gossiper.Step
import CppGossip.Broadcast.Message
import CppGossip.Gossiper.Outcome
import CppGossip.Collection.Index
import CppGossip.Collection.Alternation
import CppGossip.Membership.Table
import CppGossip.Membership.Thread
import CppGossip.Membership.Race
import CppGossip.Gossiper.News
import CppGossip.Membership.Record
import CppGossip.Membership.Notify
import CppGossip.Membership.Count
import CppGossip.Peer.State
import CppGossip.Peer.Invariant
import CppGossip.Membership.Delivery
import CppGossip.Suspicion.Bookkeeping
import CppGossip.Suspicion.Conviction
import CppGossip.Suspicion.State
import CppGossip.Suspicion.Quorum
import CppGossip.Broadcast.Belief
import CppGossip.Own.State
import CppGossip.Own.Record
import CppGossip.Own.Growth
import CppGossip.Own.Objection
import CppGossip.Sync.Exchange
import CppGossip.Sync.Learn
import CppGossip.Sync.Rejoin
import CppGossip.Broadcast.Cursor
import CppGossip.Broadcast.Quota
import CppGossip.Broadcast.Protocol
import CppGossip.Broadcast.Interleaving
import CppGossip.Message.Encode
import CppGossip.Gossiper.Contents
import CppGossip.Cluster.State
import CppGossip.Cluster.Accusation
import CppGossip.Collection.Reading
import CppGossip.Sync.Permutation
import CppGossip.Bytes.Memory
import CppGossip.Wire.Header
import CppGossip.Wire.Section
import CppGossip.Bytes.Codec
import CppGossip.Message.Port
import CppGossip.Wire.Reference
import CppGossip.Wire.Append
import CppGossip.Wire.Progress
import CppGossip.Wire.Lifetime
import CppGossip.Wire.Packet
import CppGossip.Wire.Framing
import CppGossip.Wire.Extent
import CppGossip.Wire.Presence
import CppGossip.Wire.Reply
import CppGossip.Own.Access
import CppGossip.Probe.RoundRobin
import CppGossip.Probe.AsyncClient
import CppGossip.Collection.Scan
import CppGossip.Text.Split
import CppGossip.Text.Address
import CppGossip.Sync.Seed
import CppGossip.Wire.Survival
import CppGossip.Probe.Ticker
import CppGossip.Gossiper.Queue
import CppGossip.Process.Outcome
import CppGossip.Process.Refinement
import CppGossip.Process.Survival
import CppGossip.Gossiper.Origin
import CppGossip.Cluster.Provenance
import CppGossip.Cluster.Agreement
import CppGossip.Network.Packets
import CppGossip.Network.Refinement
import CppGossip.Network.Exchange
import CppGossip.Network.Healing
import CppGossip.Sync.BlockingClient
