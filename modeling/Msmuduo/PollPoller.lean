import Msmuduo.Channel

/-!
# The poll table

`PollPoller` keeps a vector of `pollfd` entries and a map from descriptors to
channels; a channel remembers its position in the vector. A descriptor that
asks for nothing is written as `-fd - 1`, which WSAPoll skips. The definitions
follow `updateChannel` and `removeChannel` line by line, every `assert` of the
source being a `require`.
-/

namespace Msmuduo.PollPoller

open Msmuduo.Machine

set_option autoImplicit false

/-- `struct pollfd`, whose two masks are 16 bits wide. -/
structure PollFd where
  fd : Int
  events : BitVec 16
  revents : BitVec 16
  deriving DecidableEq, Repr

/-- The name of a `Channel` object, that is, its address. -/
abbrev ChannelId := Nat

/-- The poller together with the channel objects it points to. -/
structure Poller where
  object : ChannelId → Channel
  pollfds : List PollFd
  channels : Int → Option ChannelId

inductive Assertion where
  | updateNewFd
  | updateKnownFd
  | updateSameChannel
  | updateIndex
  | updatePollFd
  | channelRemoveNoneEvent
  | removeKnownFd
  | removeSameChannel
  | removeNoneEvent
  | removeIndex
  | removePollFd
  | removeMovedChannel
  deriving DecidableEq, Repr

/-- `static_cast<short>(channel->events())` -/
def toShort (mask : EventMask) : BitVec 16 := mask.setWidth 16

/-- The promotion of the `short` in a comparison with an `int`. -/
def promote (mask : BitVec 16) : EventMask := mask.signExtend 32

/-- The descriptor of an entry, whether it is being skipped or not. -/
def decode (fd : Int) : Int := if fd < 0 then -fd - 1 else fd

namespace Poller

def setObject (p : Poller) (id : ChannelId) (channel : Channel) : Poller :=
  { p with object := Function.update p.object id channel }

/-- Channels with the given descriptors, none of which the poller knows yet. -/
def new (fds : ChannelId → Nat) : Poller where
  object := fun id => Channel.new (fds id)
  pollfds := []
  channels := fun _ => none

/-- The entry pushed for a channel the poller does not know: its descriptor
is plain whatever the channel asks for. -/
def freshEntry (channel : Channel) : PollFd where
  fd := channel.fd
  events := toShort channel.events
  revents := 0#16

def added (p : Poller) (id : ChannelId) : Poller :=
  let channel := p.object id
  let pollfds := p.pollfds ++ [freshEntry channel]
  let idx : Int := (pollfds.length : Int) - 1
  { object := Function.update p.object id { channel with index := idx }
    pollfds := pollfds
    channels := Function.update p.channels channel.fd (some id) }

def addNew (p : Poller) (id : ChannelId) : Except Assertion Poller := do
  require (p.channels (p.object id).fd = none) .updateNewFd
  return p.added id

/-- The entry that `updateChannel` writes back for a channel it knows. The
descriptor is only ever made negative here, never restored. -/
def refreshed (channel : Channel) (pfd : PollFd) : PollFd :=
  { fd := if channel.isNoneEvent then -channel.fd - 1 else pfd.fd
    events := toShort channel.events
    revents := 0#16 }

def updateKnown (p : Poller) (id : ChannelId) : Except Assertion Poller := do
  let channel := p.object id
  require (p.channels channel.fd ≠ none) .updateKnownFd
  require (p.channels channel.fd = some id) .updateSameChannel
  let idx := channel.index
  require (0 ≤ idx ∧ idx < p.pollfds.length) .updateIndex
  match p.pollfds[idx.toNat]? with
  | none => .error .updateIndex
  | some pfd =>
      require (pfd.fd = channel.fd ∨ pfd.fd = -channel.fd - 1) .updatePollFd
      return { p with pollfds := p.pollfds.set idx.toNat (refreshed channel pfd) }

def updateChannel (p : Poller) (id : ChannelId) : Except Assertion Poller :=
  if (p.object id).index < 0 then p.addNew id else p.updateKnown id

/-- The last entry takes the place of a removed one, and the channel it belongs
to learns its new index. -/
def moveLast (p : Poller) (idx : Nat) (pfd last : PollFd) : Except Assertion Poller :=
  match p.channels (decode last.fd) with
  | none => .error .removeMovedChannel
  | some moved =>
      .ok { (p.setObject moved { p.object moved with index := idx }) with
        pollfds := ((p.pollfds.set idx last).set (p.pollfds.length - 1) pfd).dropLast }

def removeChannel (p : Poller) (id : ChannelId) : Except Assertion Poller := do
  let channel := p.object id
  require (p.channels channel.fd ≠ none) .removeKnownFd
  require (p.channels channel.fd = some id) .removeSameChannel
  require (channel.isNoneEvent = true) .removeNoneEvent
  let idx := channel.index
  require (0 ≤ idx ∧ idx < p.pollfds.length) .removeIndex
  match p.pollfds[idx.toNat]?, p.pollfds.getLast? with
  | some pfd, some last =>
      require (pfd.fd = -channel.fd - 1 ∧ promote pfd.events = channel.events) .removePollFd
      let erased := { p with channels := Function.update p.channels channel.fd none }
      if idx.toNat = p.pollfds.length - 1 then
        return { erased with pollfds := p.pollfds.dropLast }
      else
        erased.moveLast idx.toNat pfd last
  | _, _ => .error .removeIndex

end Poller

/-- A call on one channel. -/
inductive Event where
  | interest (id : ChannelId) (interest : Channel.Interest)
  | remove (id : ChannelId)
  deriving DecidableEq, Repr

def step (p : Poller) : Event → Except Assertion Poller
  | .interest id interest =>
      (p.setObject id ((p.object id).setInterest interest)).updateChannel id
  | .remove id => do
      require ((p.object id).isNoneEvent = true) .channelRemoveNoneEvent
      p.removeChannel id

end Msmuduo.PollPoller
