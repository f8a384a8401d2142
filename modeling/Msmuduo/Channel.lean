import Msmuduo.Machine

/-!
# Channels and event masks

A `Channel` is one descriptor with the set of events its owner asks for. The
masks are the WSAPoll flags of the WIN build, where `kReadEvent` is `POLLIN`
without `POLLPRI`. Callbacks and the bookkeeping of `handleEvent` belong to the
owner of the channel and are modelled there.
-/

namespace Msmuduo

open Msmuduo.Machine

set_option autoImplicit false

/-- The `int` that holds `events_` and `revents_`. -/
abbrev EventMask := BitVec 32

def pollErr : EventMask := 0x0001#32

def pollHup : EventMask := 0x0002#32

def pollNval : EventMask := 0x0004#32

def pollOut : EventMask := 0x0010#32

/-- `POLLRDNORM | POLLRDBAND` -/
def pollIn : EventMask := 0x0300#32

def pollPri : EventMask := 0x0400#32

/-- The C++ test `mask & flags` in a condition. -/
def EventMask.has (mask flags : EventMask) : Bool := mask &&& flags != 0#32

namespace EventMask

theorem has_or_self (mask flags : EventMask) (nonzero : flags ≠ 0#32) :
    has (mask ||| flags) flags = true := by
  have absorbed : (mask ||| flags) &&& flags = flags := by
    ext index bound
    simp only [BitVec.getElem_and, BitVec.getElem_or]
    cases flags[index] <;> simp
  simp [has, absorbed, nonzero]

theorem has_and_not_self (mask flags : EventMask) :
    has (mask &&& ~~~flags) flags = false := by
  have cleared : mask &&& ~~~flags &&& flags = 0#32 := by
    ext index bound
    simp
  simp [has, cleared]

theorem has_or_other (mask other flags : EventMask) (disjoint : other &&& flags = 0#32) :
    has (mask ||| other) flags = has mask flags := by
  unfold has
  rw [BitVec.and_or_distrib_right, disjoint, BitVec.or_zero]

theorem has_and_not_other (mask other flags : EventMask)
    (disjoint : ~~~other &&& flags = flags) :
    has (mask &&& ~~~other) flags = has mask flags := by
  unfold has
  rw [BitVec.and_assoc, disjoint]

end EventMask

structure Channel where
  fd : Int
  events : EventMask
  revents : EventMask
  index : Int
  deriving DecidableEq, Repr

namespace Channel

def kNoneEvent : EventMask := 0#32

def kReadEvent : EventMask := pollIn

def kWriteEvent : EventMask := pollOut

/-- An index of -1 says that the channel was never given to the poller. -/
def new (fd : Int) : Channel where
  fd := fd
  events := kNoneEvent
  revents := 0#32
  index := -1

def isNoneEvent (c : Channel) : Bool := c.events == kNoneEvent

def isWriting (c : Channel) : Bool := EventMask.has c.events kWriteEvent

def isReading (c : Channel) : Bool := EventMask.has c.events kReadEvent

/-- The five calls that change `events_`. Each of them ends in `update()`. -/
inductive Interest where
  | enableReading
  | disableReading
  | enableWriting
  | disableWriting
  | disableAll
  deriving DecidableEq, Repr

def Interest.apply (mask : EventMask) : Interest → EventMask
  | .enableReading => mask ||| kReadEvent
  | .disableReading => mask &&& ~~~kReadEvent
  | .enableWriting => mask ||| kWriteEvent
  | .disableWriting => mask &&& ~~~kWriteEvent
  | .disableAll => kNoneEvent

def setInterest (c : Channel) (interest : Interest) : Channel :=
  { c with events := interest.apply c.events }

theorem not_isWriting_of_isNoneEvent {c : Channel} (none : c.isNoneEvent = true) :
    c.isWriting = false := by
  have empty : c.events = kNoneEvent := by simpa [isNoneEvent] using none
  simp [isWriting, EventMask.has, empty, kNoneEvent]

theorem not_isReading_of_isNoneEvent {c : Channel} (none : c.isNoneEvent = true) :
    c.isReading = false := by
  have empty : c.events = kNoneEvent := by simpa [isNoneEvent] using none
  simp [isReading, EventMask.has, empty, kNoneEvent]

theorem isWriting_setInterest (c : Channel) (interest : Interest) :
    (c.setInterest interest).isWriting =
      match interest with
      | .enableWriting => true
      | .disableWriting | .disableAll => false
      | .enableReading | .disableReading => c.isWriting := by
  cases interest with
  | enableReading => exact EventMask.has_or_other _ _ _ (by decide)
  | disableReading => exact EventMask.has_and_not_other _ _ _ (by decide)
  | enableWriting => exact EventMask.has_or_self _ _ (by decide)
  | disableWriting => exact EventMask.has_and_not_self _ _
  | disableAll => exact not_isWriting_of_isNoneEvent rfl

theorem isReading_setInterest (c : Channel) (interest : Interest) :
    (c.setInterest interest).isReading =
      match interest with
      | .enableReading => true
      | .disableReading | .disableAll => false
      | .enableWriting | .disableWriting => c.isReading := by
  cases interest with
  | enableReading => exact EventMask.has_or_self _ _ (by decide)
  | disableReading => exact EventMask.has_and_not_self _ _
  | enableWriting => exact EventMask.has_or_other _ _ _ (by decide)
  | disableWriting => exact EventMask.has_and_not_other _ _ _ (by decide)
  | disableAll => exact not_isReading_of_isNoneEvent rfl

theorem isNoneEvent_disableAll (c : Channel) :
    (c.setInterest .disableAll).isNoneEvent = true := rfl

/-- The masks the five calls can build: reading, writing, both or none. -/
def Interested (mask : EventMask) : Prop :=
  mask = kNoneEvent ∨ mask = kReadEvent ∨ mask = kWriteEvent ∨
    mask = kReadEvent ||| kWriteEvent

theorem interested_apply (mask : EventMask) (interest : Interest)
    (interested : Interested mask) : Interested (interest.apply mask) := by
  rcases interested with rfl | rfl | rfl | rfl <;> cases interest <;>
    simp only [Interested] <;> decide

end Channel

end Msmuduo
