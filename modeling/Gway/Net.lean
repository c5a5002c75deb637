import Gway.Library.Containers

/-! Socket addresses and their order, as the standard library defines them. -/

namespace Gway

/-- An address of IPv4 or IPv6; the latter has a flow label and a scope as well. -/
inductive SocketAddr where
  | v4 (ip : BitVec 32) (port : UInt16)
  | v6 (ip : BitVec 128) (port : UInt16) (flowinfo scopeId : UInt32)
deriving DecidableEq, Repr

namespace SocketAddr

/-- The fields in the order in which two addresses are compared. -/
def key : SocketAddr → List Nat
  | v4 ip port => [0, ip.toNat, port.toNat]
  | v6 ip port flowinfo scopeId =>
      [1, ip.toNat, port.toNat, flowinfo.toNat, scopeId.toNat]

theorem key_injective {left right : SocketAddr} (same : left.key = right.key)
    : left = right := by
  cases left <;> cases right <;>
    simp_all [key, BitVec.toNat_inj, UInt16.toNat_inj, UInt32.toNat_inj]

/-- Addresses are ordered by kind and then field by field. -/
instance : Ord SocketAddr where
  compare := compareOn key

instance : Std.TransOrd SocketAddr :=
  inferInstanceAs (Std.TransCmp (compareOn key))

instance : Std.LawfulEqOrd SocketAddr where
  eq_of_compare same := key_injective (Std.LawfulEqOrd.eq_of_compare same)

-----------------------------------------------------------------------------------------
-- Texts
-----------------------------------------------------------------------------------------

/-- The four bytes of an address in decimal. -/
def displayV4 (ip : BitVec 32) : String :=
  ".".intercalate ([24, 16, 8, 0].map fun shift => toString (ip.toNat / 2 ^ shift % 256))

/-- The eight segments of an address. -/
def segments (ip : BitVec 128) : List Nat :=
  [112, 96, 80, 64, 48, 32, 16, 0].map fun shift => ip.toNat / 2 ^ shift % 2 ^ 16

/-- The first of the longest runs of zeros: where it starts and how long it is. `run` is the
run that ends before the segment at `index`.
-/
def longestZeros : List Nat → (index : Nat) → (longest run : Nat × Nat) → Nat × Nat
  | [], _, longest, _ => longest
  | segment :: later, index, longest, run =>
      if segment = 0 then
        let run := (if run.2 = 0 then index else run.1, run.2 + 1)
        longestZeros later (index + 1) (if run.2 > longest.2 then run else longest) run
      else longestZeros later (index + 1) longest (0, 0)

/-- The segments in hexadecimal. -/
def displaySegments (parts : List Nat) : String :=
  ":".intercalate (parts.map fun part => String.ofList (Nat.toDigits 16 part))

/-- A run of zeros is left out, and an address mapped from IPv4 is written as such. -/
def displayV6 (ip : BitVec 128) : String :=
  if ip.toNat / 2 ^ 32 = 0xffff then "::ffff:" ++ displayV4 (ip.setWidth 32)
  else
    let parts := segments ip
    let (start, len) := longestZeros parts 0 (0, 0) (0, 0)
    if len > 1 then
      displaySegments (parts.take start) ++ "::" ++ displaySegments (parts.drop (start + len))
    else displaySegments parts

def display : SocketAddr → String
  | v4 ip port => displayV4 ip ++ ":" ++ toString port.toNat
  | v6 ip port _ scopeId =>
      if scopeId = 0 then "[" ++ displayV6 ip ++ "]:" ++ toString port.toNat
      else
        "[" ++ displayV6 ip ++ "%" ++ toString scopeId.toNat ++ "]:" ++ toString port.toNat

end SocketAddr

/-- The address `a.b.c.d:port`. -/
def ipv4 (a b c d : UInt8) (port : UInt16) : SocketAddr :=
  .v4 (BitVec.ofNat 32 (((a.toNat * 256 + b.toNat) * 256 + c.toNat) * 256 + d.toNat)) port

/-- An upstream server on the same host. -/
def localUpstream : SocketAddr := ipv4 127 0 0 1 8080

end Gway
