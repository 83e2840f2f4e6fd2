import SniffProxy.Frontend
import SniffProxy.Net.System

/-!
# Events of listeners

What a listener reports: that it has started and stopped, the beginning and end of every connection
that it accepts, and what the system refuses it.
-/

namespace SniffProxy

/-- What stands for the client of an accepted connection, whose port the machine picked. -/
def clientName : String := "127.0.0.1:" ++ pickedPort

/-- The event that a listener is there. -/
def listenerStarted (address : BoundAddress) (frontend : Frontend) (limit : Nat) : LogEvent where
  level := .info
  target := .server
  message := "Listener started"
  fields := [("address", .shown address.toString), ("frontend", .shown frontend.name),
    ("max_connections", .number limit)]

/-- The event that a listener is gone. -/
def listenerStopped (frontend : Frontend) : LogEvent where
  level := .info
  target := .server
  message := "Listener stopped"
  fields := [("frontend", .shown frontend.name)]

/-- The events at the end of a connection in service. -/
def connectionOver (frontend : Frontend) (result : Except ProxyError Unit) : List LogEvent :=
  match result with
  | .ok _ => [.connection clientName "closed"]
  | .error error =>
    [.connectionFailed clientName frontend.name error, .connection clientName "closed"]

/-- The event at the beginning of a connection. -/
def connectionNew : LogEvent :=
  .connection clientName "new"

/-- The event that no connection could be accepted. -/
def acceptFailed (frontend : Frontend) (error : IoError) : LogEvent where
  level := .error
  target := .server
  message := "Failed to accept connection"
  fields := [("frontend", .shown frontend.name), ("error", .shown error.message)]

/-- The event that the options of an accepted socket could not be set. -/
def tuneFailed (error : IoError) : LogEvent where
  level := .debug
  target := .server
  message := "Failed to set socket options"
  fields := [("peer", .shown clientName), ("error", .shown error.message)]

end SniffProxy
