import HotaruMqtt.Broker.Operations

/-!
# Admission of a connection

The part of `handle_server` before the session is registered: the first packet, the
keep-alive policy of `MqttSafety`, the authenticator's verdict and the identifier
of the client.
-/

namespace HotaruMqtt.Server

open Exec Exec.Outcome Broker

/-- The limits on keep-alive of `MqttSafety`. -/
structure MqttSafety where
  maxKeepAlive? : Option UInt16
  allowDisabledKeepAlive? : Option Bool
  deriving DecidableEq, Repr

namespace MqttSafety

/-- Nothing has been set, so that the defaults hold. -/
def new : MqttSafety :=
  ⟨none, none⟩

/-- One hour, unless it was set. -/
def maxKeepAlive (safety : MqttSafety) : UInt16 :=
  safety.maxKeepAlive?.getD 3600

/-- A keep-alive of 0 is refused unless it was allowed. -/
def allowsDisabledKeepAlive (safety : MqttSafety) : Bool :=
  safety.allowDisabledKeepAlive?.getD false

end MqttSafety

/-- The verdict of an authenticator.  Nothing keeps the two fields from contradicting each
other. -/
structure AuthResult where
  accepted : Bool
  returnCode : ConnackReturnCode
  deriving DecidableEq, Repr

/-- The read deadline of a connection in milliseconds; none for keep-alive 0. -/
def serverReadDeadline (keepAlive : UInt16) : Option Nat :=
  if keepAlive = 0 then none else some (keepAlive.toNat * 1500)

/-- How the read of the first packet ends. -/
inductive FirstRead
  | elapsed
  | failed (error : MqttError)
  | packet (packet : Packet)
  deriving DecidableEq, Repr

/-- What the handler keeps of the CONNECT. -/
structure Session where
  client : ClientId
  keepAlive : UInt16
  deriving DecidableEq, Repr

/-- What becomes of a connection by its first packet. -/
inductive Admission
  /-- The handler returns the error. -/
  | failed (error : MqttError)
  /-- The handler answers with the code and returns. -/
  | refused (code : ConnackReturnCode)
  | admitted (session : Session) (registration : Registration)
  deriving DecidableEq, Repr

/-- The keep-alive is outside the limits. -/
def keepAliveRefused (safety : MqttSafety) (keepAlive : UInt16) : Bool :=
  if keepAlive = 0 then !safety.allowsDisabledKeepAlive else safety.maxKeepAlive < keepAlive

/-- A client without an identifier is given one from its connection. -/
def clientIdOf (connection : ConnectionId) (connect : ConnectPacket) : ClientId :=
  if connect.clientId = "" then "hotaru-auto-" ++ toString connection else connect.clientId

/-- The Will of a CONNECT as the broker keeps it. -/
def willOf (will : WillPacket) : WillMessage :=
  ⟨will.topic, will.payload, will.qos, will.retain⟩

/-- What the handler makes of the first read: anything but a CONNECT is an error, the
keep-alive is checked before the verdict, and an accepted client is to be registered. -/
def admission (safety : MqttSafety) (connection : ConnectionId) (auth : AuthResult) :
    FirstRead → Admission
  | .elapsed => .failed (.timeout .connectReceive)
  | .failed error => .failed error
  | .packet (.connect connect) =>
      if keepAliveRefused safety connect.keepAlive then
        .refused .serverUnavailable
      else if auth.accepted then
        .admitted ⟨clientIdOf connection connect, connect.keepAlive⟩
          ⟨clientIdOf connection connect, connection, connect.will.map willOf,
            connect.cleanSession⟩
      else
        .refused auth.returnCode
  | .packet _ => .failed (.protocol .expectedConnect)

/-- What a connection registers with. -/
def registrationOf (connection : ConnectionId) (connect : ConnectPacket) : Registration :=
  ⟨clientIdOf connection connect, connection, connect.will.map willOf, connect.cleanSession⟩

/-- Whoever is admitted has sent a CONNECT within the policy that the authenticator accepts,
and is served and registered with what the CONNECT says. -/
theorem eq_of_admitted {safety : MqttSafety} {connection : ConnectionId} {auth : AuthResult}
    {read : FirstRead} {session : Session} {registration : Registration}
    (admitted : admission safety connection auth read = .admitted session registration) :
    ∃ connect, read = .packet (.connect connect) ∧
      registration = registrationOf connection connect ∧
      session = ⟨clientIdOf connection connect, connect.keepAlive⟩ ∧
      keepAliveRefused safety connect.keepAlive = false ∧ auth.accepted = true := by
  unfold admission at admitted
  split at admitted
  case h_3 connect =>
    split at admitted
    · contradiction
    · rename_i permitted
      split at admitted
      · rename_i accepted
        cases admitted
        exact ⟨connect, rfl, rfl, rfl, Bool.not_eq_true _ ▸ permitted, accepted⟩
      · contradiction
  all_goals contradiction

end HotaruMqtt.Server
