import NexusMainframe.Chromecast.CastAccess
import NexusMainframe.Chromecast.CastBounds
import NexusMainframe.Chromecast.CastChannel
import NexusMainframe.Chromecast.CastDevice
import NexusMainframe.Chromecast.CastFields
import NexusMainframe.Chromecast.CastLifetime
import NexusMainframe.Chromecast.CastProto
import NexusMainframe.Chromecast.ChromecastModule
import NexusMainframe.Chromecast.ModuleMessages
import NexusMainframe.Chromecast.ReceiveLoop
import NexusMainframe.Chromecast.TlsOwnership
import NexusMainframe.Config.ConfigFile
import NexusMainframe.Config.ConfigProvider
import NexusMainframe.Config.ConfigStore
import NexusMainframe.Config.JsonConfigSource
import NexusMainframe.Config.NexusConfig
import NexusMainframe.Devices.Device
import NexusMainframe.Devices.DeviceRegistry
import NexusMainframe.Event.Delivery
import NexusMainframe.Event.Due
import NexusMainframe.Event.EventBus
import NexusMainframe.Event.Listeners
import NexusMainframe.Event.Numbered
import NexusMainframe.Event.Removal
import NexusMainframe.Http.Api
import NexusMainframe.Http.ApiCongruence
import NexusMainframe.Http.ApiRuns
import NexusMainframe.Http.ConfigController
import NexusMainframe.Http.DeviceController
import NexusMainframe.Http.DeviceStates
import NexusMainframe.Http.ModuleController
import NexusMainframe.Http.Restart
import NexusMainframe.Http.RoomController
import NexusMainframe.Http.Services
import NexusMainframe.Http.Views
import NexusMainframe.Lib.Base64
import NexusMainframe.Lib.Bits
import NexusMainframe.Lib.Bytes
import NexusMainframe.Lib.Delayed
import NexusMainframe.Lib.Digest
import NexusMainframe.Lib.FiniteMap
import NexusMainframe.Lib.FrameHead
import NexusMainframe.Lib.Hidden
import NexusMainframe.Lib.Interleaving
import NexusMainframe.Lib.Json
import NexusMainframe.Lib.JsonAccess
import NexusMainframe.Lib.JsonCodec
import NexusMainframe.Lib.JsonPatch
import NexusMainframe.Lib.JsonText
import NexusMainframe.Lib.Lineage
import NexusMainframe.Lib.Lts
import NexusMainframe.Lib.Machine
import NexusMainframe.Lib.Mqtt
import NexusMainframe.Lib.MultiMap
import NexusMainframe.Lib.Numbered
import NexusMainframe.Lib.Overwrite
import NexusMainframe.Lib.Ownership
import NexusMainframe.Lib.Path
import NexusMainframe.Lib.PathPattern
import NexusMainframe.Lib.Protobuf
import NexusMainframe.Lib.RequestHead
import NexusMainframe.Lib.Rewriting
import NexusMainframe.Lib.Search
import NexusMainframe.Lib.SecureHash
import NexusMainframe.Lib.StackWalk
import NexusMainframe.Lib.Stream
import NexusMainframe.Lib.Topic
import NexusMainframe.Lib.UpgradeRequest
import NexusMainframe.Lib.Url
import NexusMainframe.Lib.Utf8
import NexusMainframe.Lib.Varint
import NexusMainframe.Lib.WebSocket
import NexusMainframe.Lib.Window
import NexusMainframe.Lib.Wire
import NexusMainframe.Lib.WriteBehind
import NexusMainframe.Logging.LogBroadcaster
import NexusMainframe.Logging.LogStream
import NexusMainframe.MainFrame.NexusMainFrame
import NexusMainframe.MainFrame.StopAll
import NexusMainframe.Mcp.BuildUrl
import NexusMainframe.Mcp.Disturbances
import NexusMainframe.Mcp.JsonRpc
import NexusMainframe.Mcp.McpServer
import NexusMainframe.Mcp.ToolCalls
import NexusMainframe.Mcp.ToolRuns
import NexusMainframe.Mcp.ToolViews
import NexusMainframe.Modules.HandleLedger
import NexusMainframe.Modules.HandleRelease
import NexusMainframe.Modules.InOrder
import NexusMainframe.Modules.LibraryPath
import NexusMainframe.Modules.ModuleManager
import NexusMainframe.Modules.ModuleObjects
import NexusMainframe.Modules.ModuleRestart
import NexusMainframe.Modules.ModuleScanner
import NexusMainframe.Modules.ModuleStateStore
import NexusMainframe.Mqtt.Client
import NexusMainframe.Mqtt.Encoding
import NexusMainframe.Mqtt.HandlePacket
import NexusMainframe.Mqtt.Lifecycle
import NexusMainframe.Mqtt.PacketIds
import NexusMainframe.Mqtt.Segmentation
import NexusMainframe.Mqtt.SocketOwnership
import NexusMainframe.Registry.Crash
import NexusMainframe.Registry.LoadSave
import NexusMainframe.Registry.Registry
import NexusMainframe.Result.Result
import NexusMainframe.Rooms.Room
import NexusMainframe.Rooms.RoomRegistry
import NexusMainframe.Scheduler.Scheduler
import NexusMainframe.Scheduler.TaskErrors
import NexusMainframe.Server.Endpoint
import NexusMainframe.Server.FrameLength
import NexusMainframe.Server.HttpServer
import NexusMainframe.Server.KeyHeader
import NexusMainframe.Server.Routes
import NexusMainframe.Server.ShortCounts
import NexusMainframe.Server.WsClientLoop
import NexusMainframe.Server.WsClients
import NexusMainframe.Server.WsControl
import NexusMainframe.Server.WsDigest
import NexusMainframe.Server.WsFragments
import NexusMainframe.Server.WsFrame
import NexusMainframe.Server.WsGreeting
import NexusMainframe.Server.WsHandshake
import NexusMainframe.Server.WsOwnership
import NexusMainframe.Server.WsRoundTrip
import NexusMainframe.Server.WsServer
import NexusMainframe.Services.Gateway
import NexusMainframe.Services.MqttService
import NexusMainframe.Services.Outbound
import NexusMainframe.Services.Requests
import NexusMainframe.Services.RoomDevices
import NexusMainframe.Services.SaveLoad
import NexusMainframe.Services.Saved
import NexusMainframe.Services.Serial
import NexusMainframe.Services.TopicMatch
import NexusMainframe.Services.WsBridge
import NexusMainframe.Services.WsService
import NexusMainframe.Services.WsSubscriptions
import NexusMainframe.Task.EventTask
import NexusMainframe.Task.Pipeline
import NexusMainframe.Trigger.EventTrigger
import NexusMainframe.Trigger.TriggerRuns
