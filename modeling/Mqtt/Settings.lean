import Mqtt.Topic.Name
import Mqtt.Transport.Kind
import Mqtt.Wire.Encode

/-!
# `Mqtt.Settings`: how a client connects

`Settings` is everything that a client has to know to connect. A
`SettingsDraft` collects the choices of an application; `build` checks
them, fills in the defaults and reports the first fault.

* `Settings.toConnect` is the CONNECT that opens a connection.
* `clientIdAt` makes a client identifier from a time.
-/

set_option autoImplicit false

namespace Mqtt

/-- How a client connects. -/
structure Settings where
  /-- The name or the address of the server. -/
  hostname : String
  port : UInt16
  clientId : String
  username : Option String
  password : Option String
  /-- Whether the server is to forget the client's earlier session. -/
  cleanSession : Bool
  will : Option Message
  /-- In seconds; zero turns keep-alive off. -/
  keepAlive : UInt16
  transport : TransportKind
  version : ProtocolLevel
  deriving DecidableEq, Repr, Inhabited

namespace Settings

/-- The keep-alive interval in nanoseconds. -/
def keepAliveInterval (s : Settings) : Nat :=
  s.keepAlive.toNat * 1000000000

/-- The CONNECT packet of these settings. -/
def toConnect (s : Settings) : Packet :=
  .connect
    { protocolLevel := s.version
      cleanSession := s.cleanSession
      keepAlive := s.keepAlive
      clientId := s.clientId
      will := s.will
      username := presentText s.username
      password := presentText s.password }

end Settings

/-- What is wrong with the choices of an application. -/
inductive SettingsError where
  | emptyHostname
  | emptyClientId
  /-- The client identifier cannot be sent. -/
  | badClientId (reason : WireError)
  /-- The topic of the will is no topic name. -/
  | badWillTopic (topic : String)
  | missingHostname
  | missingClientId
  deriving DecidableEq, Repr

/-- The sentence that describes an error. -/
def SettingsError.message : SettingsError → String
  | emptyHostname => "Hostname cannot be empty"
  | emptyClientId => "Client ID cannot be empty"
  | badClientId reason => reason.message
  | badWillTopic topic => "'" ++ topic ++ "' is not a valid will topic"
  | missingHostname => "`hostname` must be initialized"
  | missingClientId => "`client_id` must be initialized"

/-- The choices of an application. -/
structure SettingsDraft where
  hostname : Option String
  port : Option UInt16
  clientId : Option String
  username : Option String
  password : Option String
  cleanSession : Option Bool
  will : Option Message
  keepAlive : Option UInt16
  transport : Option TransportKind
  version : Option ProtocolLevel
  deriving DecidableEq, Repr, Inhabited

namespace SettingsDraft

/-- Checks the host name, if there is one. -/
def checkHostname : Option String → Except SettingsError Unit
  | none => .ok ()
  | some hostname => if hostname.isEmpty then .error .emptyHostname else .ok ()

/-- Checks the client identifier, if there is one. -/
def checkClientId : Option String → Except SettingsError Unit
  | none => .ok ()
  | some id =>
      if id.isEmpty then .error .emptyClientId
      else (validateText id).mapError .badClientId

/-- Checks the topic of the will, if there is one. -/
def checkWill : Option Message → Except SettingsError Unit
  | none => .ok ()
  | some will => if Topic.isName will.topic then .ok () else .error (.badWillTopic will.topic)

/-- Makes settings of the choices. What was chosen is checked before what
is missing is reported. -/
def build (d : SettingsDraft) : Except SettingsError Settings := do
  checkHostname d.hostname
  checkClientId d.clientId
  checkWill d.will
  let some hostname := d.hostname | throw .missingHostname
  let some clientId := d.clientId | throw .missingClientId
  return {
    hostname
    port := d.port.getD 1883
    clientId
    username := d.username
    password := d.password
    cleanSession := d.cleanSession.getD true
    will := d.will
    keepAlive := d.keepAlive.getD 60
    transport := d.transport.getD .tcp
    version := d.version.getD .v311 }

end SettingsDraft

/-- A client identifier for a connection that is not resumed, made from the
nanoseconds since the start of 1970. Earlier times count as that start. -/
def clientIdAt (sinceEpoch : Int) : String :=
  "tokio_mqtt3_" ++ String.ofList (Nat.toDigits 16 sinceEpoch.toNat)

end Mqtt
