import Mathlib.Algebra.Group.Nat.Defs
import Mathlib.Algebra.Order.Ring.Int
import Mathlib.Data.List.Basic
import Msmuduo.Machine

/-!
# The names of connections

`TcpServer::newConnection` numbers connections with an `int` and writes
`":%s#%d"`, the listen address and the number, into a buffer of 32 bytes with
`_snprintf`, which cuts off what does not fit and then writes no terminator.
The name of the connection is the key of `connections_`.

What a name is read to when the terminator is missing depends on the bytes
behind the buffer. They are arbitrary here, for every connection anew.
-/

namespace Msmuduo.TcpServer

open Msmuduo.Machine

set_option autoImplicit false

/-- `sockaddr_in`: the bytes of the address and the port. -/
structure InetAddress where
  first : UInt8
  second : UInt8
  third : UInt8
  fourth : UInt8
  port : UInt16
  deriving DecidableEq, Repr

/-- `%u` -/
def formatUnsigned (value : Nat) : List Char := Nat.toDigits 10 value

/-- `%d` -/
def formatInt (value : Int) : List Char :=
  if value < 0 then '-' :: formatUnsigned value.natAbs else formatUnsigned value.natAbs

def InetAddress.toIp (address : InetAddress) : List Char :=
  formatUnsigned address.first.toNat ++ '.' :: formatUnsigned address.second.toNat ++
    '.' :: formatUnsigned address.third.toNat ++ '.' :: formatUnsigned address.fourth.toNat

def InetAddress.toIpPort (address : InetAddress) : List Char :=
  address.toIp ++ ':' :: formatUnsigned address.port.toNat

def bufSize : Nat := 32

/-- The C string in `buf` after `_snprintf(buf, sizeof buf, ...)`, which is
terminated only when it is shorter than the buffer. -/
def bufText (text behind : List Char) : List Char :=
  if text.length < bufSize then text else text.take bufSize ++ behind

/-- `":%s#%d"` -/
def idText (hostport : List Char) (connId : Int) : List Char :=
  ':' :: hostport ++ '#' :: formatInt connId

/-- `++` on an `int` of 32 bits. -/
def increment (value : Int) : Int := Int.bmod (value + 1) (2 ^ 32)

inductive Assertion where
  /-- `assert(n == 1)` in `removeConnectionInLoop` -/
  | erasedOne
  deriving DecidableEq, Repr

structure Server where
  name : List Char
  hostport : List Char
  nextConnId : Int
  connections : List (List Char)
  accepted : Nat

namespace Server

def new (name hostport : List Char) : Server where
  name := name
  hostport := hostport
  nextConnId := 1
  connections := []
  accepted := 0

def connName (s : Server) (behind : List Char) : List Char :=
  s.name ++ bufText (idText s.hostport s.nextConnId) behind

/-- `connections_[connName] = conn`, which replaces the entry if there is one. -/
def newConnection (s : Server) (behind : List Char) : Server :=
  { s with
    nextConnId := increment s.nextConnId
    connections := if s.connName behind ∈ s.connections then s.connections
      else s.connections ++ [s.connName behind]
    accepted := s.accepted + 1 }

def removeConnectionInLoop (s : Server) (connName : List Char) : Except Assertion Server := do
  require (connName ∈ s.connections) .erasedOne
  return { s with connections := s.connections.erase connName }

end Server

inductive Event where
  | newConnection
  | removeConnectionInLoop (connName : List Char)
  deriving DecidableEq, Repr

def Event.isNew : Event → Bool
  | .newConnection => true
  | .removeConnectionInLoop _ => false

/-- The bytes behind the buffer are given for every connection by its number. -/
def step (behind : Nat → List Char) (s : Server) : Event → Except Assertion Server
  | .newConnection => .ok (s.newConnection (behind (s.accepted + 1)))
  | .removeConnectionInLoop connName => s.removeConnectionInLoop connName

/-- A new connection does not take the entry of another. -/
def Fresh (behind : Nat → List Char) (s : Server) : Event → Prop
  | .newConnection => s.connName (behind (s.accepted + 1)) ∉ s.connections
  | .removeConnectionInLoop _ => True

/-- How many connections can be accepted before two of them may get one name,
by the length of the address: the number has to fit behind it, and the counter
must not have come around. -/
def maxConnections (length : Nat) : Nat :=
  if length ≤ 19 then 2 ^ 32 else if length = 20 then 2 ^ 31 else 10 ^ 9 - 1

/-! ### Numbers as text -/

theorem formatUnsigned_injective {first second : Nat}
    (same : formatUnsigned first = formatUnsigned second) : first = second := by
  have value := congrArg (fun text => Nat.ofDigitChars 10 text 0) same
  simpa [formatUnsigned, Nat.ofDigitChars_toDigits] using value

theorem minus_not_mem (value : Nat) : '-' ∉ formatUnsigned value := by
  intro member
  have digit := Nat.isDigit_of_mem_toDigits (by decide) (by decide) member
  revert digit
  decide

/-- A negative number begins with a sign and no other does. -/
theorem formatInt_head {value : Int} (notNegative : ¬value < 0) :
    ∀ rest, formatInt value ≠ '-' :: rest := by
  intro rest same
  rw [formatInt, if_neg notNegative] at same
  apply minus_not_mem value.natAbs
  rw [same]
  exact List.mem_cons_self

theorem formatInt_injective {first second : Int} (same : formatInt first = formatInt second) :
    first = second := by
  by_cases negative : first < 0
  · have signed : formatInt first = '-' :: formatUnsigned first.natAbs := if_pos negative
    by_cases otherNegative : second < 0
    · rw [signed, formatInt, if_pos otherNegative] at same
      have equal := formatUnsigned_injective (List.cons.inj same).2
      omega
    · rw [signed] at same
      exact absurd same.symm (formatInt_head otherNegative _)
  · by_cases otherNegative : second < 0
    · have signed : formatInt second = '-' :: formatUnsigned second.natAbs := if_pos otherNegative
      rw [signed] at same
      exact absurd same (formatInt_head negative _)
    · rw [formatInt, formatInt, if_neg negative, if_neg otherNegative] at same
      have equal := formatUnsigned_injective same
      omega

theorem length_formatUnsigned_le {value digits : Nat} (positive : 0 < digits)
    (fits : value < 10 ^ digits) : (formatUnsigned value).length ≤ digits :=
  (Nat.length_toDigits_le_iff (by decide) positive).mpr fits

theorem length_toIpPort_le (address : InetAddress) : address.toIpPort.length ≤ 21 := by
  have byte : ∀ value : UInt8, (formatUnsigned value.toNat).length ≤ 3 := by
    intro value
    apply length_formatUnsigned_le (by decide)
    exact Nat.lt_trans value.toNat_lt (by decide)
  have port : (formatUnsigned address.port.toNat).length ≤ 5 := by
    apply length_formatUnsigned_le (by decide)
    exact Nat.lt_trans address.port.toNat_lt (by decide)
  have first := byte address.first
  have second := byte address.second
  have third := byte address.third
  have fourth := byte address.fourth
  simp only [InetAddress.toIpPort, InetAddress.toIp, List.length_append, List.length_cons]
  omega

/-! ### The number of a connection -/

/-- The value of `nextConnId_` for the connection with the given number. -/
def connId (number : Nat) : Int := Int.bmod number (2 ^ 32)

theorem increment_connId (number : Nat) : increment (connId number) = connId (number + 1) := by
  unfold increment connId
  rw [Int.bmod_add_bmod, Nat.cast_add, Nat.cast_one]

theorem connId_small {number : Nat} (small : number < 2 ^ 31) : connId number = number := by
  unfold connId Int.bmod
  dsimp only
  split_ifs <;> omega

theorem connId_large {number : Nat} (large : 2 ^ 31 ≤ number) (bounded : number < 2 ^ 32) :
    connId number = number - 2 ^ 32 := by
  unfold connId Int.bmod
  dsimp only
  split_ifs <;> omega

theorem connId_bounds (number : Nat) : -2 ^ 31 ≤ connId number ∧ connId number < 2 ^ 31 := by
  unfold connId Int.bmod
  dsimp only
  split_ifs <;> omega

theorem connId_eq_iff (first second : Nat) :
    connId first = connId second ↔ first % 2 ^ 32 = second % 2 ^ 32 := by
  unfold connId Int.bmod
  dsimp only
  split_ifs <;> omega

theorem length_formatInt_connId_le (number : Nat) : (formatInt (connId number)).length ≤ 11 := by
  have bounds := connId_bounds number
  generalize connId number = id at bounds
  have digits : (formatUnsigned id.natAbs).length ≤ 10 := by
    apply length_formatUnsigned_le (by decide)
    omega
  unfold formatInt
  split_ifs
  · rw [List.length_cons]
    exact Nat.succ_le_succ digits
  · exact Nat.le_succ_of_le digits

/-! ### What is left of a name -/

theorem idText_take {hostport : List Char} (short : hostport.length ≤ 21) (id : Int) :
    (idText hostport id).take bufSize =
      ':' :: hostport ++ '#' :: (formatInt id).take (30 - hostport.length) := by
  have split : idText hostport id = (':' :: hostport ++ ['#']) ++ formatInt id := by
    simp [idText]
  have size : bufSize = (':' :: hostport ++ ['#']).length + (30 - hostport.length) := by
    simp only [bufSize, List.length_append, List.length_cons, List.length_nil]
    omega
  rw [split, size, List.take_length_add_append]
  simp

theorem bufText_take {first second behind other : List Char}
    (same : bufText first behind = bufText second other) :
    first.take bufSize = second.take bufSize := by
  unfold bufText at same
  split_ifs at same with fits otherFits otherFits
  · rw [same]
  · have lengths := congrArg List.length same
    rw [List.length_append, List.length_take] at lengths
    omega
  · have lengths := congrArg List.length same
    rw [List.length_append, List.length_take] at lengths
    omega
  · apply List.append_inj_left same
    rw [List.length_take, List.length_take]
    omega

/-- A number that is not too long is written out, with no sign. -/
theorem take_formatInt_connId {number digits : Nat} (positive : 0 < digits)
    (fits : number < 10 ^ digits) (small : number < 2 ^ 31) :
    (formatInt (connId number)).take digits = formatUnsigned number := by
  have unsigned : formatInt (connId number) = formatUnsigned number := by
    rw [connId_small small, formatInt, if_neg (by omega), Int.natAbs_natCast]
  rw [unsigned]
  exact List.take_of_length_le (length_formatUnsigned_le positive fits)

theorem formatInt_connId_large {number : Nat} (large : 2 ^ 31 ≤ number)
    (bounded : number < 2 ^ 32) :
    formatInt (connId number) = '-' :: formatUnsigned (2 ^ 32 - number) := by
  rw [connId_large large bounded, formatInt, if_pos (by omega)]
  congr 2
  omega

/-- What is left of the number behind an address still tells the connections
apart, as long as there are not too many. -/
theorem take_formatInt_injective {length first second : Nat}
    (positive : 0 < first) (bounded : first ≤ maxConnections length)
    (otherPositive : 0 < second) (otherBounded : second ≤ maxConnections length)
    (short : length ≤ 21)
    (same : (formatInt (connId first)).take (30 - length) =
      (formatInt (connId second)).take (30 - length)) : first = second := by
  unfold maxConnections at bounded otherBounded
  split_ifs at bounded otherBounded with roomy exact
  · have whole : ∀ number,
        (formatInt (connId number)).take (30 - length) = formatInt (connId number) := by
      intro number
      have atMost := length_formatInt_connId_le number
      exact List.take_of_length_le (by omega)
    rw [whole, whole] at same
    have congruent := (connId_eq_iff first second).mp (formatInt_injective same)
    omega
  · subst exact
    have signed : (formatInt (connId (2 ^ 31))).take (30 - 20) =
        '-' :: (formatUnsigned (2 ^ 31)).take 9 := by
      rw [formatInt_connId_large (by decide) (by decide)]
      rfl
    have plain : ∀ {number}, number < 2 ^ 31 →
        (formatInt (connId number)).take (30 - 20) = formatUnsigned number := by
      intro number small
      exact take_formatInt_connId (by decide) (Nat.lt_trans small (by decide)) small
    have unlike : ∀ {number}, number < 2 ^ 31 →
        formatUnsigned number ≠ '-' :: (formatUnsigned (2 ^ 31)).take 9 := by
      intro number small equal
      apply minus_not_mem number
      rw [equal]
      exact List.mem_cons_self
    rcases Nat.lt_or_eq_of_le bounded with small | last
    · rcases Nat.lt_or_eq_of_le otherBounded with otherSmall | otherLast
      · rw [plain small, plain otherSmall] at same
        exact formatUnsigned_injective same
      · subst otherLast
        rw [plain small, signed] at same
        exact absurd same (unlike small)
    · subst last
      rcases Nat.lt_or_eq_of_le otherBounded with otherSmall | otherLast
      · rw [plain otherSmall, signed] at same
        exact absurd same.symm (unlike otherSmall)
      · exact otherLast.symm
  · have plain : ∀ {number}, number ≤ 10 ^ 9 - 1 →
        (formatInt (connId number)).take (30 - length) = formatUnsigned number := by
      intro number small
      have exactly : 30 - length = 9 := by omega
      rw [exactly]
      exact take_formatInt_connId (by decide) (by omega) (by omega)
    rw [plain bounded, plain otherBounded] at same
    exact formatUnsigned_injective same

/-! ### The names given out -/

section

variable {behind : Nat → List Char}

/-- The name of the connection with the given number. -/
def nameOf (name hostport : List Char) (behind : Nat → List Char) (number : Nat) : List Char :=
  name ++ bufText (idText hostport (connId number)) (behind number)

theorem nameOf_injective {name hostport : List Char} {first second : Nat}
    (positive : 0 < first) (bounded : first ≤ maxConnections hostport.length)
    (otherPositive : 0 < second) (otherBounded : second ≤ maxConnections hostport.length)
    (short : hostport.length ≤ 21)
    (same : nameOf name hostport behind first = nameOf name hostport behind second) :
    first = second := by
  have kept := bufText_take (List.append_cancel_left same)
  rw [idText_take short, idText_take short] at kept
  have digits := List.append_cancel_left kept
  exact take_formatInt_injective positive bounded otherPositive otherBounded short
    (List.cons.inj digits).2

/-- The counter follows the number of connections, and every key of
`connections_` is the name of a connection accepted before. -/
structure Numbered (name hostport : List Char) (behind : Nat → List Char) (s : Server) :
    Prop where
  nextConnId : s.nextConnId = connId (s.accepted + 1)
  keys : ∀ key ∈ s.connections, ∃ number, 0 < number ∧ number ≤ s.accepted ∧
    key = nameOf name hostport behind number
  sameName : s.name = name
  sameHostport : s.hostport = hostport

theorem new_numbered (name hostport : List Char) :
    Numbered name hostport behind (Server.new name hostport) where
  nextConnId := by
    show 1 = connId 1
    decide
  keys := by
    intro key member
    cases member
  sameName := rfl
  sameHostport := rfl

theorem Numbered.connName {name hostport : List Char} {s : Server}
    (numbered : Numbered name hostport behind s) :
    s.connName (behind (s.accepted + 1)) = nameOf name hostport behind (s.accepted + 1) := by
  rw [Server.connName, numbered.sameName, numbered.sameHostport, numbered.nextConnId, nameOf]

theorem removeConnectionInLoop_ok {s next : Server} {connName : List Char}
    (ran : s.removeConnectionInLoop connName = .ok next) :
    next = { s with connections := s.connections.erase connName } := by
  obtain ⟨_, _, returned⟩ := bind_ok_inv ran
  cases returned
  rfl

theorem step_numbered {name hostport : List Char} {s next : Server} {event : Event}
    (numbered : Numbered name hostport behind s) (taken : step behind s event = .ok next) :
    Numbered name hostport behind next := by
  cases event with
  | newConnection =>
      cases taken
      constructor
      · show increment s.nextConnId = connId (s.accepted + 1 + 1)
        rw [numbered.nextConnId, increment_connId]
      · intro key member
        have among : key ∈ s.connections ∨ key = s.connName (behind (s.accepted + 1)) := by
          dsimp only [Server.newConnection] at member
          split_ifs at member
          · exact .inl member
          · simpa using member
        rcases among with old | new
        · obtain ⟨number, positive, bounded, named⟩ := numbered.keys key old
          exact ⟨number, positive, Nat.le_succ_of_le bounded, named⟩
        · exact ⟨s.accepted + 1, Nat.succ_pos _, Nat.le_refl _, new.trans numbered.connName⟩
      · exact numbered.sameName
      · exact numbered.sameHostport
  | removeConnectionInLoop connName =>
      rw [removeConnectionInLoop_ok taken]
      constructor
      · exact numbered.nextConnId
      · intro key member
        exact numbered.keys key (List.mem_of_mem_erase member)
      · exact numbered.sameName
      · exact numbered.sameHostport

/-- As long as the names given out are told apart, a new one is not a key. -/
theorem Numbered.fresh {name hostport : List Char} {s : Server}
    (numbered : Numbered name hostport behind s) (short : hostport.length ≤ 21)
    (bounded : s.accepted + 1 ≤ maxConnections hostport.length) :
    s.connName (behind (s.accepted + 1)) ∉ s.connections := by
  intro member
  obtain ⟨number, positive, earlier, named⟩ := numbered.keys _ member
  rw [numbered.connName] at named
  have equal := nameOf_injective (Nat.succ_pos _) bounded positive (by omega) short named
  omega

theorem fresh_while_few {name hostport : List Char} (short : hostport.length ≤ 21)
    {events : List Event} {s : Server} (numbered : Numbered name hostport behind s)
    (few : s.accepted + events.countP Event.isNew ≤ maxConnections hostport.length) :
    AllSteps (step behind) (Fresh behind) s events := by
  induction events generalizing s with
  | nil => trivial
  | cons event events ih =>
      cases event with
      | newConnection =>
          rw [List.countP_cons_of_pos rfl] at few
          constructor
          · exact numbered.fresh short (by omega)
          · have taken : step behind s .newConnection = .ok _ := rfl
            apply ih (step_numbered numbered taken)
            show s.accepted + 1 + _ ≤ _
            omega
      | removeConnectionInLoop connName =>
          constructor
          · trivial
          · cases taken : step behind s (.removeConnectionInLoop connName) with
            | error fault => trivial
            | ok next =>
                have kept := removeConnectionInLoop_ok taken
                apply ih (step_numbered numbered taken)
                rw [kept]
                exact few

end

/-! ### One connection too many -/

theorem bufText_nil (text : List Char) : bufText text [] = text.take bufSize := by
  unfold bufText
  split_ifs with fits
  · exact (List.take_of_length_le (by omega)).symm
  · exact List.append_nil _

/-- The first connection above the bound has the name of an earlier one when
the buffer is followed by a terminator. -/
theorem nameOf_collides (name : List Char) {hostport : List Char}
    (short : hostport.length ≤ 21) :
    ∃ first, 0 < first ∧ first ≤ maxConnections hostport.length ∧
      nameOf name hostport (fun _ => []) first =
        nameOf name hostport (fun _ => []) (maxConnections hostport.length + 1) := by
  have byDigits : ∀ first second,
      (formatInt (connId first)).take (30 - hostport.length) =
        (formatInt (connId second)).take (30 - hostport.length) →
      nameOf name hostport (fun _ => []) first = nameOf name hostport (fun _ => []) second := by
    intro first second same
    rw [nameOf, nameOf, bufText_nil, bufText_nil, idText_take short, idText_take short, same]
  unfold maxConnections
  split_ifs with roomy exact
  · refine ⟨1, by decide, by decide, byDigits _ _ ?_⟩
    rw [(connId_eq_iff 1 (2 ^ 32 + 1)).mpr (by decide)]
  · refine ⟨2 ^ 31, by decide, by decide, byDigits _ _ ?_⟩
    rw [exact, formatInt_connId_large (by decide) (by decide),
      formatInt_connId_large (by decide) (by decide)]
    decide
  · refine ⟨10 ^ 8, by decide, by decide, byDigits _ _ ?_⟩
    have exactly : 30 - hostport.length = 9 := by omega
    rw [exactly, connId_small (by decide), connId_small (by decide)]
    decide

/-- With no connection closed, all names given out are in `connections_`. -/
theorem accept_many (name hostport : List Char) (behind : Nat → List Char) (count : Nat) :
    ∃ s, run (step behind) (Server.new name hostport) (.replicate count .newConnection) = .ok s ∧
      Numbered name hostport behind s ∧ s.accepted = count ∧
      ∀ number, 0 < number → number ≤ count →
        nameOf name hostport behind number ∈ s.connections := by
  induction count with
  | zero =>
      refine ⟨Server.new name hostport, rfl, new_numbered name hostport, rfl, ?_⟩
      intro number positive bounded
      omega
  | succ count ih =>
      obtain ⟨s, ran, numbered, accepted, all⟩ := ih
      have taken : step behind s .newConnection =
          .ok (s.newConnection (behind (s.accepted + 1))) := rfl
      refine ⟨_, ?_, step_numbered numbered taken, congrArg Nat.succ accepted, ?_⟩
      · rw [List.replicate_succ', run_append _ ran, run_singleton]
        exact taken
      · intro number positive bounded
        have named := numbered.connName
        rw [accepted] at named
        dsimp only [Server.newConnection]
        rw [accepted, named]
        rcases Nat.lt_or_eq_of_le bounded with earlier | last
        · have old := all number positive (Nat.le_of_lt_succ earlier)
          split_ifs
          · exact old
          · exact List.mem_append_left _ old
        · subst last
          split_ifs with present
          · exact present
          · exact List.mem_append_right _ List.mem_cons_self

theorem last_not_fresh (name : List Char) {hostport : List Char}
    (short : hostport.length ≤ 21) :
    ¬AllSteps (step fun _ => []) (Fresh fun _ => []) (Server.new name hostport)
      (.replicate (maxConnections hostport.length + 1) .newConnection) := by
  intro fresh
  obtain ⟨first, positive, bounded, same⟩ := nameOf_collides name short
  obtain ⟨s, ran, numbered, count, all⟩ := accept_many name hostport (fun _ => [])
    (maxConnections hostport.length)
  rw [List.replicate_succ', all_steps_append _ ran, all_steps_singleton] at fresh
  apply fresh.2
  have named := numbered.connName
  rw [named, count, ← same]
  exact all first positive bounded

/-- Connections accepted on an address keep distinct names in every run
exactly as long as there are not more of them than the number after the
address can tell apart. -/
theorem connection_names_distinct_iff (name : List Char) (address : InetAddress)
    (accepted : Nat) :
    (∀ behind events, events.countP Event.isNew ≤ accepted →
      AllSteps (step behind) (Fresh behind) (Server.new name address.toIpPort) events) ↔
    accepted ≤ maxConnections address.toIpPort.length := by
  have short := length_toIpPort_le address
  constructor
  · intro distinct
    by_contra more
    apply last_not_fresh name short
    apply distinct
    have all : List.countP Event.isNew
        (.replicate (maxConnections address.toIpPort.length + 1) .newConnection) =
          maxConnections address.toIpPort.length + 1 := List.countP_replicate
    omega
  · intro few behind events bounded
    apply fresh_while_few short (new_numbered name address.toIpPort)
    show 0 + _ ≤ _
    omega

/-- The thousand millionth connection of a server on an address of 21
characters replaces another. -/
theorem connection_replaced :
    ¬AllSteps (step fun _ => []) (Fresh fun _ => [])
      (Server.new [] (InetAddress.mk 192 168 100 100 12345).toIpPort)
      (.replicate (10 ^ 9) .newConnection) := by
  have long : (InetAddress.mk 192 168 100 100 12345).toIpPort.length = 21 := by decide
  have bound : maxConnections 21 + 1 = 10 ^ 9 := by decide
  have replaced := last_not_fresh [] (Nat.le_of_eq long)
  rw [long, bound] at replaced
  exact replaced

end Msmuduo.TcpServer
