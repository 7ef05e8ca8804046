import Mathlib.Data.Nat.Basic
import Rimz.Lib.Names

/-!
# Identifiers and instants

The newtypes of `ids.rs` that wrap text stay text. A `MessageId` is its sortable token: the source
writes it as `msg_` and sixteen base32hex digits, big-endian and of fixed width, so the order and
the equality of the texts are those of the tokens.
-/

namespace Rimz

/-- A `jiff::Timestamp`, in nanoseconds. -/
abbrev Timestamp := Int

/-- A span between instants, in nanoseconds. -/
abbrev Duration := Int

def fromMillis (n : Nat) : Duration := n * 1000000

abbrev AgentKind := String

abbrev AgentSessionId := String

abbrev PaneId := String

abbrev WorkspaceId := String

abbrev EventId := String

/-- `MessageId`, by its 80-bit sortable token. -/
abbrev MessageId := Nat

def base32hex (d : Nat) : Char :=
  if d < 10 then Char.ofNat (48 + d) else Char.ofNat (87 + d)

def encodeShortId (label : String) (sortable : Nat) : String :=
  label ++ String.ofList
    ([15, 14, 13, 12, 11, 10, 9, 8, 7, 6, 5, 4, 3, 2, 1, 0].map fun i =>
      base32hex (sortable / 32 ^ i % 32))

def MessageId.asStr (id : MessageId) : String := encodeShortId "msg_" id

/-- `MessageId::successor`: the encoding keeps 80 bits. -/
def MessageId.successor (id : MessageId) : MessageId := (id + 1) % 2 ^ 80

inductive AgentStatus where
  | running
  | waiting
  | idle
  | success
  | failed
  | paused
  | sleeping
  deriving DecidableEq

def AgentStatus.asStr : AgentStatus → String
  | .running => "running"
  | .waiting => "waiting"
  | .idle => "idle"
  | .success => "success"
  | .failed => "failed"
  | .paused => "paused"
  | .sleeping => "sleeping"

structure AgentCardRef where
  kind : AgentKind
  agentId : AgentSessionId
  name : Option String

def AgentCardRef.matches (card other : AgentCardRef) : Bool :=
  card.kind == other.kind
    && (card.agentId == other.agentId || (card.name.isSome && card.name == other.name))

end Rimz
