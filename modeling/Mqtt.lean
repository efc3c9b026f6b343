import Mqtt.Client.Progress
import Mqtt.Client.Run
import Mqtt.Packet.Portable
import Mqtt.Proofs.Client.Answer
import Mqtt.Proofs.Client.Attempt
import Mqtt.Proofs.Client.Conservation
import Mqtt.Proofs.Client.Delivery
import Mqtt.Proofs.Client.Duplicate
import Mqtt.Proofs.Client.Locality
import Mqtt.Proofs.Client.Parting
import Mqtt.Proofs.Client.Pass
import Mqtt.Proofs.Client.Release
import Mqtt.Proofs.Client.Sendable
import Mqtt.Proofs.Client.Sequence
import Mqtt.Proofs.Client.Silence
import Mqtt.Proofs.Client.Stream
import Mqtt.Proofs.Session.Operations
import Mqtt.Proofs.Session.Rotation
import Mqtt.Proofs.Settings
import Mqtt.Proofs.Topic.Filter
import Mqtt.Proofs.Transport.Stability
import Mqtt.Proofs.Wire.Canonical
import Mqtt.Proofs.Wire.Connect
import Mqtt.Proofs.Wire.Violation
import Mqtt.Transport.Stream
