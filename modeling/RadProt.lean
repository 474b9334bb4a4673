import RadProt.Settings.Protection
import RadProt.Settings.Texts
import RadProt.Sensors.Numbering
import RadProt.Http.Acknowledged
import RadProt.Http.Body
import RadProt.Websocket.Messages
import RadProt.Dns.Termination
import RadProt.Mqtt.Descriptors
import RadProt.Mqtt.Publisher
import RadProt.Hal.Lines
import RadProt.Hal.Timeout
import RadProt.Enc28j60.Interleaving
import RadProt.Enc28j60.Receive
import RadProt.Enc28j60.Frames
import RadProt.Http.Division
import RadProt.Http.Overlap
import RadProt.Mqtt.Indicator
import RadProt.Http.Buffers
import RadProt.Http.Handles
import RadProt.Dns.Names
import RadProt.Http.Portal
import RadProt.Websocket.Sockets
import RadProt.Enc28j60.Transmit
import RadProt.Sensors.Average
import RadProt.Websocket.Handshake
import RadProt.Websocket.Publish
import RadProt.Sensors.Fields
import RadProt.Settings.Complete
import RadProt.Settings.Changes
import RadProt.Websocket.Chunks
import RadProt.Websocket.Encoding
import RadProt.Dns.Reply
import RadProt.Dns.Residue
import RadProt.Enc28j60.Pairs
import RadProt.Enc28j60.Area
import RadProt.Alloc.Allocator
import RadProt.Hal.Queue
import RadProt.Dhcp.Discovery
import RadProt.Dhcp.Replies
import RadProt.Mqtt.Delivery
import RadProt.Mqtt.Waiting
import RadProt.Mqtt.Wire
import RadProt.Mqtt.Connect
import RadProt.Mqtt.Keepalive
import RadProt.Settings.Secrecy
import RadProt.Settings.Networks
import RadProt.Ip.SignIn
