import ToranaEdge.Stream.Recovery
import ToranaEdge.Stream.PassThrough
import ToranaEdge.Request.CacheMarkers
import ToranaEdge.Pipeline.AfterResponse
import ToranaEdge.Pipeline.Drain
import ToranaEdge.Pipeline.Metadata
import ToranaEdge.Pipeline.Verdicts
import ToranaEdge.Pipeline.PluginHttp
import ToranaEdge.Pipeline.PluginFiles
import ToranaEdge.Pipeline.AuditLog
import ToranaEdge.Pipeline.PrefixWriter
import ToranaEdge.Pipeline.RequestChain
import ToranaEdge.Format.AnthropicStream.Output
import ToranaEdge.Format.AnthropicStream.Fidelity
import ToranaEdge.Format.GeminiPairing
import ToranaEdge.Format.GeminiFidelity.Request
import ToranaEdge.Format.OpenAIFidelity.Request
import ToranaEdge.PluginState.Pagination
import ToranaEdge.Engine.Conversation
import ToranaEdge.Engine.StreamInverse
