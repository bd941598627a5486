import Bedjet.Api.Taxonomy
import Bedjet.Api.Freshness
import Bedjet.Api.Confirmation
import Bedjet.Api.ReadBack
import Bedjet.Api.Calls
import Bedjet.Api.Listening
import Bedjet.Api.Yielding
import Bedjet.Service.ReaderStop
import Bedjet.Api.PacketType
import Bedjet.Api.Cancelling
import Bedjet.Api.Starting
import Bedjet.Integrations.Admission
import Bedjet.Api.Awaiting
import Bedjet.Api.Notifying
import Bedjet.Asyncio.Queue
import Bedjet.Integrations.Availability
import Bedjet.Integrations.Kinds
import Bedjet.Integrations.MessageRuns
import Bedjet.Integrations.StateOrder
import Bedjet.Codes.Additive
import Bedjet.Device.Integrity
import Bedjet.Service.Delivery
import Bedjet.Api.Adoption
import Bedjet.Api.Deciding
import Bedjet.Api.Targets
import Bedjet.Api.Fans
import Bedjet.Api.Waiting
import Bedjet.Integrations.ExchangeRuns
import Bedjet.Integrations.FanRequests
import Bedjet.Api.DryRuns
import Bedjet.Api.Rehearsed
import Bedjet.Api.Backoff
import Bedjet.Service.Pokes
import Bedjet.Service.ReadsInFlight
import Bedjet.Service.Listeners
import Bedjet.Integrations.Sockets
import Bedjet.Integrations.HostHeader
import Bedjet.Integrations.Shutdown
import Bedjet.Cli.Release
import Bedjet.Transport.Completion
import Bedjet.Transport.Writes
import Bedjet.Transport.Errors
import Bedjet.Transport.Adapter
import Bedjet.Cli.HandBack
import Bedjet.Cli.Transcript
import Bedjet.Integrations.App
import Bedjet.Integrations.Surface
import Bedjet.Protocol.Commands
import Bedjet.Api.Capabilities
import Bedjet.Api.Origins
import Bedjet.Integrations.MessageOrigins
