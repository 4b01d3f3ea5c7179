import MatrixServer.Foundation.DelimitedStream
import MatrixServer.Foundation.TransitionRuns
import MatrixServer.Foundation.RemoteService
import MatrixServer.Foundation.FlagHandoff
import MatrixServer.Foundation.RunRefinement
import MatrixServer.Foundation.PictureBoard
import MatrixServer.Foundation.StuffedBlocks
import MatrixServer.Foundation.ControlStack
import MatrixServer.Foundation.KeyedWrites
import MatrixServer.Foundation.WriteQueue
import MatrixServer.Foundation.NamedQueues
import MatrixServer.Foundation.ThreadPrograms
import MatrixServer.Foundation.BlockingSends
import MatrixServer.Foundation.PlotLoops
import MatrixServer.Foundation.RasterLine
import MatrixServer.Foundation.RasterCircle
import MatrixServer.Foundation.PixelGrid
import MatrixServer.Foundation.OrderedMap
import MatrixServer.Foundation.OrderedGroups
import MatrixServer.Foundation.Spans
import MatrixServer.Foundation.InkLayers
import MatrixServer.Foundation.FlowLayout
import MatrixServer.Foundation.EdgeLatch
import MatrixServer.Foundation.SerialCommands
import MatrixServer.Foundation.LineDisplay
import MatrixServer.Foundation.ByteBuffer
import MatrixServer.Common.Cobs
import MatrixServer.Common.CobsDecoding
import MatrixServer.Common.CobsEncoding
import MatrixServer.Common.CobsFrames
import MatrixServer.Common.CobsStream
import MatrixServer.Common.CobsReset
import MatrixServer.Common.Message
import MatrixServer.Common.Screen
import MatrixServer.Common.ScreenPixels
import MatrixServer.Common.ScreenOperations
import MatrixServer.Common.SocketWrites
import MatrixServer.Common.SocketLinks
import MatrixServer.Common.Joystick
import MatrixServer.Common.InputLatches
import MatrixServer.Common.SimulatorInput
import MatrixServer.Common.JoystickManager
import MatrixServer.Common.ManagerSlots
import MatrixServer.Common.CombinedPresses
import MatrixServer.Common.DeviceInput
import MatrixServer.Common.DeviceNodes
import MatrixServer.Common.DeviceChecks
import MatrixServer.Application.AnimationParams
import MatrixServer.Application.Presets
import MatrixServer.Application.MatrixApplication
import MatrixServer.Application.AppThreads
import MatrixServer.Application.ApplicationRuns
import MatrixServer.Application.AppKill
import MatrixServer.Application.FrameErrors
import MatrixServer.Application.ClientScreens
import MatrixServer.Application.Reconnection
import MatrixServer.Application.Standalone
import MatrixServer.Application.IoContext
import MatrixServer.Application.CharacterBitmaps
import MatrixServer.Application.CubeApplication
import MatrixServer.Application.CubeFaces
import MatrixServer.Application.CubeVoxels
import MatrixServer.Application.CubeDrawing
import MatrixServer.Application.CubeLines
import MatrixServer.Application.CubeCircles
import MatrixServer.Application.CubeRandomPoints
import MatrixServer.Application.CubeEdges
import MatrixServer.Application.CubeRects
import MatrixServer.Application.CubeCenteredRects
import MatrixServer.Application.CubeText
import MatrixServer.Renderer.Renderer
import MatrixServer.Renderer.WsSession
import MatrixServer.Renderer.BrowserSessions
import MatrixServer.Renderer.PanelOutput
import MatrixServer.Renderer.PanelPixels
import MatrixServer.Renderer.SpiLines
import MatrixServer.Renderer.LineWords
import MatrixServer.Renderer.PanelWires
import MatrixServer.Renderer.FrameStream
import MatrixServer.Renderer.FtdiStream
import MatrixServer.Renderer.SpiStream
import MatrixServer.Renderer.PanelBounds
import MatrixServer.Renderer.LinePayload
import MatrixServer.Renderer.SpiQueue
import MatrixServer.Server.Server
import MatrixServer.Server.FrameHandling
import MatrixServer.Server.ServerCalls
import MatrixServer.Server.AppStack
import MatrixServer.Server.FramePayload
import MatrixServer.Server.Replies
import MatrixServer.Server.Introductions
import MatrixServer.Server.Display
import MatrixServer.Server.ServerSetup
import MatrixServer.Server.DefaultApp
import MatrixServer.Server.DefaultAppRestart
import MatrixServer.Server.SchemaMessages
import MatrixServer.Server.SchemaPanel
import MatrixServer.Server.Sections
import MatrixServer.Server.Programs
import MatrixServer.Server.TopWords
import MatrixServer.Server.StageWords
import MatrixServer.Server.RejectedFrames
import MatrixServer.Server.IpcQueues
import MatrixServer.Server.QueueAccounts
import MatrixServer.Server.StalledClients
import MatrixServer.Server.IpcHandshake
import MatrixServer.Server.IpcInvariant
import MatrixServer.Server.IpcClients
import MatrixServer.Server.IpcPairing
import MatrixServer.Server.IpcProgress
import MatrixServer.Server.IpcNames
import MatrixServer.Protocol.System
import MatrixServer.Protocol.Introductions
import MatrixServer.Protocol.FrameTokens
import MatrixServer.Protocol.LockStep
import MatrixServer.Protocol.FrameGate
import MatrixServer.Protocol.ShownFrames
import MatrixServer.Protocol.AnnouncedScreens
import MatrixServer.Protocol.WireFrames
import MatrixServer.Protocol.VoxelWires
import MatrixServer.Protocol.ParameterReplies
import MatrixServer.Protocol.PicturesShown
import MatrixServer.Protocol.DisplayHistory
import MatrixServer.Protocol.InputsInOrder
