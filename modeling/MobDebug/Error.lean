import MobDebug.Literal.Fault
import MobDebug.Session.State
import MobDebug.Text.Quoted
import MobDebug.Wire.Command
/-!
What can go wrong in a session, by cause, and the wording of each cause.
-/
namespace MobDebug

/-- The stream itself failed, or could not be had. -/
inductive StreamFault where
  | endInHeader
  | endInBody (length : Nat)
  | brokenPipe
  | unreachable
  | unknownHost
  deriving DecidableEq

def StreamFault.message : StreamFault → String
  | .endInHeader => "stream ended inside a response header"
  | .endInBody length => "stream ended inside a " ++ toString length ++ " byte response body"
  | .brokenPipe => "broken pipe"
  | .unreachable => "Network is unreachable (os error 101)"
  | .unknownHost =>
    "failed to lookup address information: Temporary failure in name resolution"

/-- A part of a stack reply that has to be a table. -/
inductive StackPart where
  | stack
  | frame
  | info
  | scope
  | variable
  deriving DecidableEq

def StackPart.name : StackPart → String
  | .stack => "stack"
  | .frame => "stack frame"
  | .info => "frame info"
  | .scope => "variable scope"
  | .variable => "variable"

/-- A line, frame or reply that the protocol does not allow. -/
inductive ProtocolFault where
  | multiLineCommand (name : Wire.CommandName)
  | pauseLocation (body : String)
  | pauseLine (body : String)
  | headerEncoding
  | emptyHeader
  | noBodyLength (line : String)
  | unknownStatus (token : String)
  | bodyLength (token : String)
  | headerTooLong (limit : Nat)
  | bodyTooLong (length limit : Nat)
  | emptyExpression
  | multiLineExpression
  | notResults (typeName : String)
  | keyedResults
  | notSerialized (typeName : String)
  | notStackTable (part : StackPart) (typeName : String)
  | noFrameInfo
  deriving DecidableEq

def ProtocolFault.message : ProtocolFault → String
  | .multiLineCommand name => name.token ++ " command must fit on a single line"
  | .pauseLocation body => "malformed pause location " ++ Text.quote body
  | .pauseLine body => "malformed pause line in " ++ Text.quote body
  | .headerEncoding => "response header is not valid UTF-8"
  | .emptyHeader => "empty response header"
  | .noBodyLength line => "response header " ++ Text.quote line ++ " has no body length"
  | .unknownStatus token => "unknown response status " ++ Text.quote token
  | .bodyLength token => "invalid body length " ++ Text.quote token
  | .headerTooLong limit => "response header exceeds " ++ toString limit ++ " bytes"
  | .bodyTooLong length limit =>
    "response body of " ++ toString length ++ " bytes exceeds the " ++ toString limit ++
      " byte limit"
  | .emptyExpression => "empty expression"
  | .multiLineExpression => "expression must fit on a single line"
  | .notResults typeName => "expected a table of results, found " ++ typeName
  | .keyedResults => "result table has non-positional entries"
  | .notSerialized typeName => "expected a serialized result, found " ++ typeName
  | .notStackTable part typeName =>
    "malformed stack reply: " ++ part.name ++ " is a " ++ typeName ++ ", not a table"
  | .noFrameInfo => "malformed stack reply: stack frame has no info"

/-- The line of a command, if it is a single one. -/
def Wire.Command.encode (c : Wire.Command) : Except ProtocolFault String :=
  match c.line? with
  | some line => .ok line
  | none => .error (.multiLineCommand c.name)

inductive Error where
  | stream (fault : StreamFault)
  | timeout
  | connectionClosed
  | protocol (fault : ProtocolFault)
  | invalidState (operation : Session.Operation) (state : Session.State)
  | channelClosed
  | literal (error : Literal.Error)
  | debuggee (code : Nat) (message : String)
  deriving DecidableEq

/-- Failures of the network end the connection, those of the protocol concern one operation, and
those of the debuggee leave the session as it was. -/
inductive ErrorKind where
  | network
  | protocol
  | debuggee
  deriving DecidableEq

namespace Error

def kind : Error → ErrorKind
  | .stream _ => .network
  | .timeout => .network
  | .connectionClosed => .network
  | .protocol _ => .protocol
  | .invalidState _ _ => .protocol
  | .channelClosed => .protocol
  | .literal _ => .protocol
  | .debuggee _ _ => .debuggee

def message : Error → String
  | .stream fault => "i/o error talking to the debuggee: " ++ fault.message
  | .timeout => "timed out waiting for the debuggee"
  | .connectionClosed => "connection to the debuggee closed"
  | .protocol fault => "protocol error: " ++ fault.message
  | .invalidState operation state =>
    "invalid state: cannot " ++ operation.description ++ " while " ++ state.name
  | .channelClosed => "protocol error: command channel closed"
  | .literal error =>
    "malformed literal at byte " ++ toString error.offset ++ ": " ++ error.fault.message
  | .debuggee code message => "debuggee error (" ++ toString code ++ "): " ++ message

/-- The debuggee's own words, if it reported the error. -/
def debuggeeMessage? : Error → Option String
  | .debuggee _ message => some message
  | _ => none

end Error
end MobDebug
