import Mathlib.Data.Vector.Defs
import Mathlib.Algebra.Group.Nat.Basic
import Mathlib.Data.Nat.Defs

/-! The byte formats the UDP relay exchanges with the relay server: the SOCKS5-style address,
the UDP-associate record and the request preamble. `proto` is not under src/, so they are
modelled from the spec, with the two parser laws the relay code relies on. -/

namespace TrojanRs

set_option autoImplicit false

/-- An IP address: four or sixteen octets. -/
inductive IpAddr where
  | v4 (octets : Mathlib.Vector UInt8 4)
  | v6 (octets : Mathlib.Vector UInt8 16)
  deriving DecidableEq

/-- An address and a port, as smoltcp's `IpEndpoint`. -/
structure IpEndpoint where
  addr : IpAddr
  port : UInt16
  deriving DecidableEq

/-- Address type byte of an IPv4 address in `proto`. -/
def IPV4 : UInt8 := 1

/-- Address type byte of an IPv6 address in `proto`. -/
def IPV6 : UInt8 := 4

def IpAddr.atyp : IpAddr → UInt8
  | .v4 _ => IPV4
  | .v6 _ => IPV6

def IpAddr.octets : IpAddr → List UInt8
  | .v4 o => o.toList
  | .v6 o => o.toList

/-- Big-endian `u16`; like `as u16`, it keeps the low sixteen bits. -/
def be16 (n : Nat) : List UInt8 := [UInt8.ofNat (n / 256), UInt8.ofNat n]

/-- The value of the big-endian `u16` `hi lo`. -/
def ofBe16 (hi lo : UInt8) : Nat := hi.toNat * 256 + lo.toNat

theorem toNat_ofNat_u8 (n : Nat) : (UInt8.ofNat n).toNat = n % 256 := by
  simp [UInt8.toNat, UInt8.ofNat, BitVec.toNat_ofNat]

@[simp] theorem be16_length (n : Nat) : (be16 n).length = 2 := rfl

theorem ofBe16_be16 {n : Nat} (h : n < 65536) :
    ofBe16 (UInt8.ofNat (n / 256)) (UInt8.ofNat n) = n := by
  simp only [ofBe16, toNat_ofNat_u8]
  omega

theorem port_ofBe16 (p : UInt16) :
    UInt16.ofNat (ofBe16 (UInt8.ofNat (p.toNat / 256)) (UInt8.ofNat p.toNat)) = p := by
  rw [ofBe16_be16 (UInt16.toNat_lt_size p)]
  exact UInt16.toNat.inj (UInt16.toNat_ofNat_of_lt (UInt16.toNat_lt_size p))

/-- The SOCKS5 address of an endpoint. -/
def IpEndpoint.encode (e : IpEndpoint) : List UInt8 :=
  e.addr.atyp :: e.addr.octets ++ be16 e.port.toNat

/-- Modelled from the spec: `UdpAssociate::generate_endpoint`, the header of a
record of `len` payload bytes. -/
def generateEndpoint (e : IpEndpoint) (len : UInt16) : List UInt8 :=
  e.encode ++ be16 len.toNat ++ [13, 10]

/-- The wildcard `0.0.0.0:0` of `OPTIONS.empty_addr`. -/
def emptyAddr : IpEndpoint := ⟨.v4 ⟨[0, 0, 0, 0], rfl⟩, 0⟩

/-- Modelled from the spec: `TrojanRequest::generate(UDP_ASSOCIATE, empty_addr)`,
the preamble `CMD || ADDR || CRLF` with `CMD = 0x03`. -/
def udpAssociatePreamble : List UInt8 := 3 :: emptyAddr.encode ++ [13, 10]

/-- A UDP-associate record as the relay sends it; the length field holds its payload size. -/
structure UdpRecord where
  endpoint : IpEndpoint
  payload : List UInt8
  length_lt : payload.length < 65536

def UdpRecord.encode (r : UdpRecord) : List UInt8 :=
  generateEndpoint r.endpoint (UInt16.ofNat r.payload.length) ++ r.payload

/-- What `UdpAssociate::parse_endpoint` finds at the front of a buffer.
`payload` is everything after the record header; the caller cuts it at `length`. -/
inductive UdpParseResultEndpoint where
  | continued
  | packet (endpoint : IpEndpoint) (length : Nat) (payload : List UInt8)
  | invalidProtocol
  deriving DecidableEq

/-- The record after its address type byte: `n` octets, `PORT`, `LEN`, CRLF and the payload. -/
def parseAfterAtyp (n : Nat) (mk : Mathlib.Vector UInt8 n → IpAddr) (rest : List UInt8) :
    UdpParseResultEndpoint :=
  if h : rest.length < n then .continued else
  match rest.drop n with
  | p₁ :: p₂ :: l₁ :: l₂ :: cr :: lf :: payload =>
    if cr = 13 ∧ lf = 10 then
      if payload.length < ofBe16 l₁ l₂ then .continued
      else .packet ⟨mk ⟨rest.take n, by simp; omega⟩, UInt16.ofNat (ofBe16 p₁ p₂)⟩
        (ofBe16 l₁ l₂) payload
    else .invalidProtocol
  | _ => .continued

/-- Modelled from the spec: the streaming `UdpAssociate::parse_endpoint`. -/
def parseEndpoint : List UInt8 → UdpParseResultEndpoint
  | [] => .continued
  | atyp :: rest =>
    if atyp = IPV4 then parseAfterAtyp 4 .v4 rest
    else if atyp = IPV6 then parseAfterAtyp 16 .v6 rest
    else .invalidProtocol

@[simp] theorem IpAddr.octets_v4 (o : Mathlib.Vector UInt8 4) : (IpAddr.v4 o).octets = o.toList := rfl
@[simp] theorem IpAddr.octets_v6 (o : Mathlib.Vector UInt8 16) : (IpAddr.v6 o).octets = o.toList := rfl

theorem UdpRecord.length_toNat (r : UdpRecord) : (UInt16.ofNat r.payload.length).toNat = r.payload.length :=
  UInt16.toNat_ofNat_of_lt r.length_lt

/-- The bytes a record carries after its address octets. -/
def recordTail (port : UInt16) (payload : List UInt8) : List UInt8 :=
  be16 port.toNat ++ be16 payload.length ++ [13, 10] ++ payload

theorem encode_eq (r : UdpRecord) :
    r.encode = r.endpoint.addr.atyp :: r.endpoint.addr.octets ++ recordTail r.endpoint.port r.payload := by
  simp [UdpRecord.encode, generateEndpoint, IpEndpoint.encode, recordTail, r.length_toNat]

theorem parseAfterAtyp_append (n : Nat) (mk : Mathlib.Vector UInt8 n → IpAddr)
    (o : Mathlib.Vector UInt8 n) (port : UInt16) (payload rest : List UInt8)
    (h : payload.length < 65536) :
    parseAfterAtyp n mk (o.toList ++ recordTail port payload ++ rest) =
      .packet ⟨mk o, port⟩ payload.length (payload ++ rest) := by
  have hd : (o.toList ++ recordTail port payload ++ rest).drop n = recordTail port payload ++ rest := by
    simp
  unfold parseAfterAtyp
  rw [dif_neg (by simp), hd]
  simp only [recordTail, be16, List.cons_append, List.append_assoc, List.nil_append, ofBe16_be16 h,
    port_ofBe16, and_self, if_true, List.length_append]
  rw [if_neg (by omega)]
  congr
  exact List.take_left' o.2

theorem parseAfterAtyp_take (n : Nat) (mk : Mathlib.Vector UInt8 n → IpAddr)
    (o : Mathlib.Vector UInt8 n) (port : UInt16) (payload : List UInt8)
    (h : payload.length < 65536) {m : Nat} (hm : m < n + 6 + payload.length) :
    parseAfterAtyp n mk ((o.toList ++ recordTail port payload).take m) = .continued := by
  unfold parseAfterAtyp
  split
  · rfl
  · rename_i hn
    simp only [List.length_take, List.length_append, o.toList_length] at hn
    rw [List.drop_take, List.drop_left' o.toList_length]
    by_cases hj : m - n < 6
    · generalize m - n = j at hj
      simp only [recordTail, be16, List.cons_append, List.nil_append]
      rcases j with _ | _ | _ | _ | _ | _ | j <;> first | rfl | omega
    · obtain ⟨k, hk⟩ : ∃ k, m - n = k + 6 := ⟨m - n - 6, by omega⟩
      simp only [hk, recordTail, be16, List.cons_append, List.nil_append, List.take_succ_cons,
        ofBe16_be16 h, and_self, if_true, List.length_take]
      rw [if_pos (by omega)]

theorem parseEndpoint_encode_append (r : UdpRecord) (rest : List UInt8) :
    parseEndpoint (r.encode ++ rest) = .packet r.endpoint r.payload.length (r.payload ++ rest) := by
  obtain ⟨⟨a, port⟩, payload, h⟩ := r
  rw [encode_eq]
  cases a with
  | v4 o => simpa [parseEndpoint, IpAddr.atyp] using parseAfterAtyp_append 4 .v4 o port payload rest h
  | v6 o =>
    simpa [parseEndpoint, IpAddr.atyp, IPV4, IPV6] using
      parseAfterAtyp_append 16 .v6 o port payload rest h

theorem parseEndpoint_take (r : UdpRecord) {k : Nat} (hk : k < r.encode.length) :
    parseEndpoint (r.encode.take k) = .continued := by
  obtain ⟨⟨a, port⟩, payload, h⟩ := r
  rw [encode_eq] at hk ⊢
  rcases k with _ | k
  · rfl
  simp only [List.cons_append, List.take_succ_cons]
  cases a with
  | v4 o =>
    simpa [parseEndpoint, IpAddr.atyp] using
      parseAfterAtyp_take 4 .v4 o port payload h (m := k) (by simp [recordTail] at hk; omega)
  | v6 o =>
    simpa [parseEndpoint, IpAddr.atyp, IPV4, IPV6] using
      parseAfterAtyp_take 16 .v6 o port payload h (m := k) (by simp [recordTail] at hk; omega)

theorem eq_take_of_prefix_lt {X A B : List UInt8} (h : X <+: A ++ B) (hl : X.length < A.length) :
    X = A.take X.length :=
  List.prefix_iff_eq_take.mp
    (List.prefix_of_prefix_length_le h (List.prefix_append A B) (Nat.le_of_lt hl))

theorem eq_append_of_prefix_le {X A B : List UInt8} (h : X <+: A ++ B) (hl : A.length ≤ X.length) :
    ∃ X', X = A ++ X' ∧ X' <+: B := by
  obtain ⟨X', rfl⟩ := List.prefix_of_prefix_length_le (List.prefix_append A B) h hl
  exact ⟨X', rfl, (List.prefix_append_right_inj A).mp h⟩

end TrojanRs
