import MobDebug.Channel.Stream
import MobDebug.Error
/-!
Connections on a machine without a network: an address cannot be reached, and a name cannot even be
looked up.
-/
namespace MobDebug.Network

/-- One part of an address: a number below 256, without a superfluous zero. -/
def isOctet (part : List Char) : Bool :=
  (Text.readNat? 256 part).any fun n => (toString n).toList == part

/-- An address of four numbers, or one of hexadecimal digits and colons. -/
def isAddress (host : String) : Bool :=
  let cs := host.toList
  let parts := cs.splitOn '.'
  (parts.length == 4 && parts.all isOctet) ||
    (cs.contains ':' && cs.all fun c => c == ':' || c == '.' || (Text.hexValue? c).isSome)

/-- This machine's own name needs no one to look it up. -/
def isKnown (host : String) : Bool :=
  host == "localhost" || isAddress host

/-- What an attempt to connect to a host comes to. -/
def connect (host : String) : Except Error Stream :=
  .error (.stream (if isKnown host then .unreachable else .unknownHost))

/-- What waiting for someone else to connect comes to. -/
def accept : Except Error Stream :=
  .error (.stream .unreachable)

end MobDebug.Network
