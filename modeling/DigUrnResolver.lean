import DigUrnResolver.Interaction.Pool
import DigUrnResolver.Source.Cache
import DigUrnResolver.Source.Crypto
import DigUrnResolver.Source.Effects
import DigUrnResolver.Source.Node
import DigUrnResolver.Source.Rpc
import DigUrnResolver.Source.Ladder
import DigUrnResolver.Source.Resolver
import DigUrnResolver.Source.World
import DigUrnResolver.Source.Conduct
import DigUrnResolver.Caching.Identity
import DigUrnResolver.Source.Sample
import DigUrnResolver.Security.Provenance
import DigUrnResolver.Caching.MemoryHits
import DigUrnResolver.Caching.SharedDisk
import DigUrnResolver.Security.Confinement
import DigUrnResolver.Security.LoopbackOrigin
import DigUrnResolver.Gateway.Bounds
import DigUrnResolver.Gateway.Windows
import DigUrnResolver.Gateway.Classification
import DigUrnResolver.Gateway.ShortStream
import DigUrnResolver.Gateway.Honest
import DigUrnResolver.Gateway.Reassembly
import DigUrnResolver.Ladder.Walk
import DigUrnResolver.Source.Transport
import DigUrnResolver.Transport.Interchange
import DigUrnResolver.Url.Parse
import DigUrnResolver.Transport.NodeRequest
import DigUrnResolver.Transport.ChunkHeader
import DigUrnResolver.Transport.CiphertextPaths
import DigUrnResolver.Ladder.Verdict
import DigUrnResolver.Caching.Accounting
import DigUrnResolver.Lru.Reference
import DigUrnResolver.Caching.Recency
import DigUrnResolver.Caching.Coherence
import DigUrnResolver.Interaction.Talk
import DigUrnResolver.Session.Calls
import DigUrnResolver.Transport.Markers
import DigUrnResolver.Session.Consultation
import DigUrnResolver.Session.Failure
import DigUrnResolver.Session.Residency
import DigUrnResolver.Session.RootlessEntries
import DigUrnResolver.Session.DiskReuse
import DigUrnResolver.Session.Planning
import DigUrnResolver.Session.Recovery
import DigUrnResolver.Source.Wasm
import DigUrnResolver.Session.DigNetwork
import DigUrnResolver.Rendering.ContentType
import DigUrnResolver.Rendering.Escaping
import DigUrnResolver.Source.Pages
import DigUrnResolver.Session.Transparency
import DigUrnResolver.Interaction.Projection
import DigUrnResolver.Security.Isolation
import DigUrnResolver.Session.Budget
import DigUrnResolver.Interaction.Absorb
import DigUrnResolver.Source.NodeFs
import DigUrnResolver.Session.NodeHost
import DigUrnResolver.Security.SaltSecrecy
import DigUrnResolver.Session.Reasons
import DigUrnResolver.Session.Delivery
import DigUrnResolver.Url.Base64
import DigUrnResolver.Url.Mime
import DigUrnResolver.Url.DataUrl
import DigUrnResolver.Interaction.Finish
import DigUrnResolver.Security.TypeProvenance
import DigUrnResolver.Source.Facade
import DigUrnResolver.Security.PageAnswers
import DigUrnResolver.Caching.WholeRuns
import DigUrnResolver.Security.HostFiles
