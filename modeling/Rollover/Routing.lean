import Rollover.Message
import Rollover.Registry
import Rollover.Segment

/-!
# Routing messages to write aliases

A message goes to the group of each of its streams, that is, to the group whose index name is the
stream's *key*: its first six characters.  A stream without a group of its own counts for the
default group, and so does a message without streams.  However many of its streams select a group, a
message is sent there once.

A batch is routed against one table of the registry.  The result lists, for each write alias, its
messages in the order of the batch; an alias without messages does not occur.
-/

namespace Rollover

/-- The number of characters of a stream that select a group. -/
def streamKeyLength : Nat := 6

/-- The part of a stream that selects a group: its first six characters, or all of it. -/
def streamKey (stream : String) : String :=
  String.ofList (stream.toList.take streamKeyLength)

/-- Messages by the alias that they are written through. -/
abbrev Routes := Std.ExtTreeMap String (List Message)

namespace Routes

/-- The messages for an alias. -/
def messagesFor (routes : Routes) (aliasName : String) : List Message :=
  routes.getD aliasName []

/-- Adds a message for an alias. -/
def deliver (routes : Routes) (aliasName : String) (message : Message) : Routes :=
  routes.insert aliasName (routes.messagesFor aliasName ++ [message])

end Routes

namespace Registry

/-- The group that a stream selects. -/
def groupOfStream (registry : Registry) (stream : String) : IndexGroup :=
  (registry.group? (streamKey stream)).getD registry.defaultGroup

/-- The groups that a message goes to, each once, in the order in which its streams select them. -/
def destinations (registry : Registry) (message : Message) : List IndexGroup :=
  match message.streamIds with
  | [] => [registry.defaultGroup]
  | streams => (streams.map registry.groupOfStream).eraseDups

/-- Sends a message to all its destinations. -/
def send (registry : Registry) (routes : Routes) (message : Message) : Routes :=
  (registry.destinations message).foldl
    (fun routes group => routes.deliver group.aliasName message) routes

/-- Routes a batch of messages. -/
def route (registry : Registry) (messages : List Message) : Routes :=
  messages.foldl registry.send ∅

end Registry
end Rollover
