import Msmuduo.Endian

/-!
# Network byte order

The WIN branch of `endiantool.cpp` on a machine of either byte order. `htonl`,
`htons` and their inverses are the platform's: they exchange a number with the
number whose bytes in memory are in network order. The 64 bit conversions are
put together from two halves by the source itself. `hton64` is a conversion to
network order; `ntoh64` returns its argument on exactly the machines on which
it would have to convert it.
-/

namespace Msmuduo.Endiantool

open Msmuduo.Endian

set_option autoImplicit false

/-- The first byte of `const int endian = 1`. -/
def endianByte (machine : ByteOrder) : UInt8 := (machine.store 4 1).headD 0

def isBigendian (machine : ByteOrder) : Bool := endianByte machine = 0

def isLittlendbian (machine : ByteOrder) : Bool := endianByte machine = 1

def htonl (machine : ByteOrder) (host : UInt32) : UInt32 :=
  UInt32.ofNat (machine.load (bigEndian 4 host.toNat))

def ntohl (machine : ByteOrder) (net : UInt32) : UInt32 :=
  UInt32.ofNat (ByteOrder.big.load (machine.store 4 net.toNat))

def htons (machine : ByteOrder) (host : UInt16) : UInt16 :=
  UInt16.ofNat (machine.load (bigEndian 2 host.toNat))

def ntohs (machine : ByteOrder) (net : UInt16) : UInt16 :=
  UInt16.ofNat (ByteOrder.big.load (machine.store 2 net.toNat))

def hton64 (machine : ByteOrder) (host : UInt64) : UInt64 :=
  if isBigendian machine then host
  else
    let low : UInt32 := (host &&& 0xFFFFFFFF).toUInt32
    let high : UInt32 := ((host >>> 32) &&& 0xFFFFFFFF).toUInt32
    let low := htonl machine low
    let high := htonl machine high
    let ret : UInt64 := low.toUInt64
    let ret := ret <<< 32
    ret ||| high.toUInt64

def ntoh64 (machine : ByteOrder) (net : UInt64) : UInt64 :=
  if isLittlendbian machine then net
  else
    let low : UInt32 := (net &&& 0xFFFFFFFF).toUInt32
    let high : UInt32 := ((net >>> 32) &&& 0xFFFFFFFF).toUInt32
    let low := ntohl machine low
    let high := ntohl machine high
    let ret : UInt64 := low.toUInt64
    let ret := ret <<< 32
    ret ||| high.toUInt64

def hostToNetwork64 (machine : ByteOrder) (host64 : UInt64) : UInt64 := hton64 machine host64

def hostToNetwork32 (machine : ByteOrder) (host32 : UInt32) : UInt32 := htonl machine host32

def hostToNetwork16 (machine : ByteOrder) (host16 : UInt16) : UInt16 := htons machine host16

def networkToHost64 (machine : ByteOrder) (net64 : UInt64) : UInt64 := ntoh64 machine net64

def networkToHost32 (machine : ByteOrder) (net32 : UInt32) : UInt32 := ntohl machine net32

def networkToHost16 (machine : ByteOrder) (net16 : UInt16) : UInt16 := ntohs machine net16

/-! ### The platform's conversions -/

theorem htonl_toNat (machine : ByteOrder) (host : UInt32) :
    (htonl machine host).toNat = machine.load (bigEndian 4 host.toNat) := by
  have fits := machine.load_lt (bigEndian 4 host.toNat)
  rw [length_bigEndian] at fits
  rw [htonl, UInt32.toNat_ofNat']
  exact Nat.mod_eq_of_lt fits

theorem htons_toNat (machine : ByteOrder) (host : UInt16) :
    (htons machine host).toNat = machine.load (bigEndian 2 host.toNat) := by
  have fits := machine.load_lt (bigEndian 2 host.toNat)
  rw [length_bigEndian] at fits
  rw [htons, UInt16.toNat_ofNat']
  exact Nat.mod_eq_of_lt fits

theorem store_htonl (machine : ByteOrder) (host : UInt32) :
    machine.store 4 (htonl machine host).toNat = bigEndian 4 host.toNat := by
  have stored := machine.store_load (bigEndian 4 host.toNat)
  rw [length_bigEndian] at stored
  rw [htonl_toNat, stored]

theorem store_htons (machine : ByteOrder) (host : UInt16) :
    machine.store 2 (htons machine host).toNat = bigEndian 2 host.toNat := by
  have stored := machine.store_load (bigEndian 2 host.toNat)
  rw [length_bigEndian] at stored
  rw [htons_toNat, stored]

theorem ntohl_htonl (machine : ByteOrder) (host : UInt32) :
    ntohl machine (htonl machine host) = host := by
  have fits : host.toNat < 256 ^ 4 := host.toNat_lt
  have loaded : ByteOrder.big.load (bigEndian 4 host.toNat) = host.toNat :=
    ByteOrder.big.load_store 4 host.toNat fits
  rw [ntohl, store_htonl, loaded, UInt32.ofNat_toNat]

theorem ntohs_htons (machine : ByteOrder) (host : UInt16) :
    ntohs machine (htons machine host) = host := by
  have fits : host.toNat < 256 ^ 2 := host.toNat_lt
  have loaded : ByteOrder.big.load (bigEndian 2 host.toNat) = host.toNat :=
    ByteOrder.big.load_store 2 host.toNat fits
  rw [ntohs, store_htons, loaded, UInt16.ofNat_toNat]

/-! ### The 64 bit conversions -/

/-- The two halves of a 64 bit number. -/
def lowHalf (value : UInt64) : UInt32 := (value &&& 0xFFFFFFFF).toUInt32

def highHalf (value : UInt64) : UInt32 := ((value >>> 32) &&& 0xFFFFFFFF).toUInt32

def joinHalves (high low : UInt32) : UInt64 := (high.toUInt64 <<< 32) ||| low.toUInt64

theorem lowHalf_toNat (value : UInt64) : (lowHalf value).toNat = value.toNat % 2 ^ 32 := by
  have mask : (0xFFFFFFFF : UInt64).toNat = 2 ^ 32 - 1 := by decide
  rw [lowHalf, UInt64.toNat_toUInt32, UInt64.toNat_and, mask, Nat.and_two_pow_sub_one_eq_mod,
    Nat.mod_mod]

theorem highHalf_toNat (value : UInt64) : (highHalf value).toNat = value.toNat / 2 ^ 32 := by
  have mask : (0xFFFFFFFF : UInt64).toNat = 2 ^ 32 - 1 := by decide
  have shift : (32 : UInt64).toNat % 64 = 32 := by decide
  have bound : value.toNat / 2 ^ 32 < 2 ^ 32 := Nat.div_lt_of_lt_mul value.toNat_lt
  rw [highHalf, UInt64.toNat_toUInt32, UInt64.toNat_and, mask, Nat.and_two_pow_sub_one_eq_mod,
    Nat.mod_mod, UInt64.toNat_shiftRight, shift, Nat.shiftRight_eq_div_pow]
  exact Nat.mod_eq_of_lt bound

theorem joinHalves_toNat (high low : UInt32) :
    (joinHalves high low).toNat = low.toNat + 2 ^ 32 * high.toNat := by
  have shift : (32 : UInt64).toNat % 64 = 32 := by decide
  have lowBound := low.toNat_lt
  have highBound := high.toNat_lt
  have fits : high.toNat <<< 32 < 2 ^ 64 := by
    rw [Nat.shiftLeft_eq]
    omega
  rw [joinHalves, UInt64.toNat_or, UInt64.toNat_shiftLeft, shift, UInt32.toNat_toUInt64,
    UInt32.toNat_toUInt64, Nat.mod_eq_of_lt fits, ← Nat.shiftLeft_add_eq_or_of_lt lowBound,
    Nat.shiftLeft_eq]
  ring

theorem halves_toNat (value : UInt64) :
    (lowHalf value).toNat + 2 ^ 32 * (highHalf value).toNat = value.toNat := by
  rw [lowHalf_toNat, highHalf_toNat]
  exact Nat.mod_add_div _ _

theorem hton64_little (host : UInt64) : hton64 .little host =
    joinHalves (htonl .little (lowHalf host)) (htonl .little (highHalf host)) := by
  have order : isBigendian .little = false := by decide
  simp [hton64, order, joinHalves, lowHalf, highHalf]

theorem hton64_big (host : UInt64) : hton64 .big host = host := by
  have order : isBigendian .big = true := by decide
  simp [hton64, order]

theorem ntoh64_little (net : UInt64) : ntoh64 .little net = net := by
  have order : isLittlendbian .little = true := by decide
  simp [ntoh64, order]

theorem ntohl_big (net : UInt32) : ntohl .big net = net := by
  have fits : net.toNat < 256 ^ 4 := net.toNat_lt
  rw [ntohl, ByteOrder.big.load_store 4 net.toNat fits, UInt32.ofNat_toNat]

theorem ntoh64_big (net : UInt64) :
    ntoh64 .big net = joinHalves (lowHalf net) (highHalf net) := by
  have order : isLittlendbian .big = false := by decide
  simp [ntoh64, order, joinHalves, lowHalf, highHalf, ntohl_big]

/-- `hton64` converts to network order on either machine. -/
theorem store_hton64 (machine : ByteOrder) (host : UInt64) :
    machine.store 8 (hton64 machine host).toNat = bigEndian 8 host.toNat := by
  cases machine with
  | big => rw [hton64_big, ByteOrder.store]
  | little =>
      have high : littleEndian 4 (htonl .little (highHalf host)).toNat =
          bigEndian 4 (highHalf host).toNat := store_htonl .little (highHalf host)
      have low : littleEndian 4 (htonl .little (lowHalf host)).toNat =
          bigEndian 4 (lowHalf host).toNat := store_htonl .little (lowHalf host)
      have converted := littleEndian_add 4 4 (htonl .little (highHalf host)).toNat
        (htonl .little (lowHalf host)).toNat (UInt32.toNat_lt _)
      have original := littleEndian_add 4 4 (lowHalf host).toNat (highHalf host).toNat
        (UInt32.toNat_lt _)
      calc ByteOrder.little.store 8 (hton64 .little host).toNat
          = littleEndian (4 + 4) ((htonl .little (highHalf host)).toNat +
              256 ^ 4 * (htonl .little (lowHalf host)).toNat) := by
            rw [hton64_little, joinHalves_toNat]
            rfl
        _ = bigEndian 4 (highHalf host).toNat ++ bigEndian 4 (lowHalf host).toNat := by
            rw [converted, high, low]
        _ = (littleEndian (4 + 4) ((lowHalf host).toNat +
              256 ^ 4 * (highHalf host).toNat)).reverse := by
            rw [original, List.reverse_append]
            rfl
        _ = bigEndian 8 host.toNat := by
            rw [bigEndian, ← halves_toNat host]
            rfl

/-- What makes up for the missing conversion: on a little-endian machine the
bytes read the same from both ends, on a big-endian one the halves are equal. -/
def Symmetric (machine : ByteOrder) (value : UInt64) : Prop :=
  match machine with
  | .little => bigEndian 8 value.toNat = littleEndian 8 value.toNat
  | .big => value.toNat / 2 ^ 32 = value.toNat % 2 ^ 32

instance (machine : ByteOrder) (value : UInt64) : Decidable (Symmetric machine value) :=
  match machine with
  | .little => inferInstanceAs
      (Decidable (bigEndian 8 value.toNat = littleEndian 8 value.toNat))
  | .big => inferInstanceAs (Decidable (value.toNat / 2 ^ 32 = value.toNat % 2 ^ 32))

theorem hton64_eq_iff (host : UInt64) :
    hton64 .little host = host ↔ Symmetric .little host := by
  have stored : littleEndian 8 (hton64 .little host).toNat = bigEndian 8 host.toNat :=
    store_hton64 .little host
  constructor
  · intro same
    rw [same] at stored
    exact stored.symm
  · intro symmetric
    apply UInt64.toNat_inj.mp
    rw [← ofLittleEndian_littleEndian 8 (hton64 .little host).toNat (UInt64.toNat_lt _), stored,
      symmetric, ofLittleEndian_littleEndian 8 host.toNat host.toNat_lt]

theorem ntoh64_eq_iff (net : UInt64) : ntoh64 .big net = net ↔ Symmetric .big net := by
  have halves := halves_toNat net
  have lowBound := (lowHalf net).toNat_lt
  have highBound := (highHalf net).toNat_lt
  rw [ntoh64_big, ← UInt64.toNat_inj, joinHalves_toNat, Symmetric, ← lowHalf_toNat,
    ← highHalf_toNat]
  omega

/-- The 64 bit conversions are inverse to each other on these numbers only. -/
theorem ntoh64_hton64_iff (machine : ByteOrder) (host : UInt64) :
    ntoh64 machine (hton64 machine host) = host ↔ Symmetric machine host := by
  cases machine with
  | little =>
      rw [ntoh64_little]
      exact hton64_eq_iff host
  | big =>
      rw [hton64_big]
      exact ntoh64_eq_iff host

end Msmuduo.Endiantool
