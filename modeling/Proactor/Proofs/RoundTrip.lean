import Proactor.Engine.Basic
import Proactor.Proofs.DottedText
import Proactor.Proofs.Halves

/-!
# Encoding and decoding

A family, a host text and a port are encoded if they name an IPv4 address and the text is the one
which that address is printed as; so what is decoded again is what was encoded, to the letter.
-/

namespace Proactor

/-- The address is that of a host text and a port, and is shown as the two of them. -/
structure Address.Shows (address : Address) (host : String) (port : UInt16) : Prop where
  hostPort : address.hostPort? = some (host, port)
  text : address.text = host ++ ":" ++ port.toNat.repr

/-- Only IPv4 addresses have a host and a port, and they are shown as these. -/
theorem Address.hostPort?_eq_some_iff {address : Address} {host : String} {port : UInt16} :
    address.hostPort? = some (host, port) ↔ ∃ ip : Ipv4, address = .inet ip port ∧
      host = ip.text := by
  cases address with
  | inet ip port' =>
    rw [hostPort?, Option.some.injEq, Prod.mk.injEq]
    constructor
    · rintro ⟨rfl, rfl⟩
      exact ⟨ip, rfl, rfl⟩
    · rintro ⟨ip', h, rfl⟩
      obtain ⟨rfl, rfl⟩ := Address.inet.inj h
      exact ⟨rfl, rfl⟩
  | none => exact iff_of_false nofun nofun
  | foreign family body => exact iff_of_false nofun nofun

namespace SocketAddress

variable {family : Int32} {host : String} {port : UInt16} {a : SocketAddress}

/-- The family is looked at before the host. -/
theorem encode_eq_unsupported_iff :
    encode family host port = .error (.unsupportedAddressFamily family) ↔
      family.toInt ≠ Family.inet.toNat := by
  unfold encode
  split
  · next hfamily => exact iff_of_true rfl hfamily
  · next hfamily =>
    apply iff_of_false
    · split <;> exact nofun
    · exact hfamily

/-- What is encoded are texts of hosts, with their family and a port. -/
theorem encode_eq_ok_iff : encode family host port = .ok a ↔
    family.toInt = Family.inet.toNat ∧ ∃ ip : Ipv4, host = ip.text ∧ a = inet ip port := by
  unfold encode
  split
  · next hfamily =>
    apply iff_of_false
    · exact nofun
    · exact fun h => hfamily h.1
  · next hfamily =>
    split
    · next ip hip =>
      rw [Except.ok.injEq]
      constructor
      · intro ha
        exact ⟨not_not.mp hfamily, ip, Ipv4.ofText?_eq_some_iff.mp hip, ha.symm⟩
      · rintro ⟨_, ip', hip', ha⟩
        obtain rfl := Option.some.inj (hip.symm.trans (Ipv4.ofText?_eq_some_iff.mpr hip'))
        exact ha.symm
    · next hnone =>
      apply iff_of_false
      · exact nofun
      · rintro ⟨_, ip, hip, _⟩
        exact Ipv4.ofText?_eq_none_iff.mp hnone ip hip

/-- Any other text is no host. -/
theorem encode_eq_invalid (hfamily : family.toInt = Family.inet.toNat)
    (hhost : ∀ ip : Ipv4, host ≠ ip.text) :
    encode family host port = .error (.invalidArgument .hostNotIpv4) := by
  rw [encode, if_neg (not_not.mpr hfamily), Ipv4.ofText?_eq_none_iff.mpr hhost]

/-- An IPv4 record is read back from any half that is large enough. -/
theorem read_write_inet {half : Bytes} (ip : Ipv4) (port : UInt16)
    (h : Half.minSize ≤ half.length) :
    Half.read (Half.write half (some (inet ip port))) = .inet ip port := by
  have hmin : Half.headerSize + 16 ≤ half.length := h
  rw [Half.read_write_eq_readBack _ (by omega)]
  exact Half.readBack_of_inet (address_inet ip port) hmin

end SocketAddress

/-- A new buffer holds what was encoded into it. -/
theorem Engine.decodeAddress_encodeAddress (m : Memory) {family : Int32} {host : String}
    {port : UInt16} {ip : Ipv4}
    (h : SocketAddress.encode family host port = .ok (.inet ip port)) :
    ∃ m' buffer, encodeAddress m family host port = .ok (m', buffer) ∧
      decodeAddress m' buffer = .inet ip port := by
  have hroom : Half.minSize ≤ (Bytes.zeros Half.fullSize).length := by
    rw [Bytes.length_zeros]
    decide
  let content := Half.write (Bytes.zeros Half.fullSize) (some (.inet ip port))
  have hread : (m.alloc content).1.read? (m.alloc content).2 = some content := by
    simp [Memory.alloc, Memory.read?, Memory.isIdle, Memory.lend?, Memory.bytes]
  refine ⟨(m.alloc content).1, (m.alloc content).2, ?_, ?_⟩
  · rw [encodeAddress, h]
    rfl
  · rw [decodeAddress, hread, Option.map_some, Option.getD_some]
    exact SocketAddress.read_write_inet ip port hroom

/-- How a family, a host text and a port are encoded, and what is decoded again. -/
structure ComesBack (family : Int32) (host : String) (port : UInt16) : Prop where
  /-- Another family than that of IPv4 is not supported, whatever the host is. -/
  unsupported : SocketAddress.encode family host port =
    .error (.unsupportedAddressFamily family) ↔ family.toInt ≠ Family.inet.toNat
  /-- For that family exactly the dotted texts of hosts are encoded. -/
  encoded : family.toInt = Family.inet.toNat →
    ((∃ a, SocketAddress.encode family host port = .ok a) ↔ ∃ ip : Ipv4, host = ip.text)
  /-- Every other text is refused. -/
  refused : family.toInt = Family.inet.toNat → (∀ ip : Ipv4, host ≠ ip.text) →
    SocketAddress.encode family host port = .error (.invalidArgument .hostNotIpv4)
  /-- What is encoded is read back from any half that it is written to. -/
  readBack : ∀ a, SocketAddress.encode family host port = .ok a →
    ∀ half : Bytes, Half.minSize ≤ half.length →
      (Half.read (Half.write half (some a))).Shows host port
  /-- It is read back from a new buffer that it is encoded into. -/
  decoded : ∀ a, SocketAddress.encode family host port = .ok a →
    ∀ m, ∃ m' buffer, Engine.encodeAddress m family host port = .ok (m', buffer) ∧
      (Engine.decodeAddress m' buffer).Shows host port
  /-- An address that has this host and port, wherever it was read, is encoded and comes back. -/
  recovered : family.toInt = Family.inet.toNat →
    ∀ address : Address, address.hostPort? = some (host, port) →
      ∃ a, SocketAddress.encode family host port = .ok a ∧
        (∀ half : Bytes, Half.minSize ≤ half.length →
          Half.read (Half.write half (some a)) = address) ∧
        ∀ m, ∃ m' buffer, Engine.encodeAddress m family host port = .ok (m', buffer) ∧
          Engine.decodeAddress m' buffer = address

/-- Encoding and decoding are inverse to each other on exactly the dotted texts of IPv4 hosts. -/
theorem canonical_hosts_come_back (family : Int32) (host : String) (port : UInt16) :
    ComesBack family host port where
  unsupported := SocketAddress.encode_eq_unsupported_iff
  encoded hfamily := by
    constructor
    · rintro ⟨a, ha⟩
      obtain ⟨_, ip, hip, _⟩ := SocketAddress.encode_eq_ok_iff.mp ha
      exact ⟨ip, hip⟩
    · rintro ⟨ip, hip⟩
      exact ⟨.inet ip port, SocketAddress.encode_eq_ok_iff.mpr ⟨hfamily, ip, hip, rfl⟩⟩
  refused := SocketAddress.encode_eq_invalid
  readBack a ha half hhalf := by
    obtain ⟨_, ip, rfl, rfl⟩ := SocketAddress.encode_eq_ok_iff.mp ha
    rw [SocketAddress.read_write_inet ip port hhalf]
    exact ⟨rfl, rfl⟩
  decoded a ha m := by
    obtain ⟨_, ip, rfl, rfl⟩ := SocketAddress.encode_eq_ok_iff.mp ha
    obtain ⟨m', buffer, hencode, hdecode⟩ := Engine.decodeAddress_encodeAddress m ha
    refine ⟨m', buffer, hencode, ?_⟩
    rw [hdecode]
    exact ⟨rfl, rfl⟩
  recovered hfamily address haddress := by
    obtain ⟨ip, rfl, rfl⟩ := Address.hostPort?_eq_some_iff.mp haddress
    have ha : SocketAddress.encode family ip.text port = .ok (.inet ip port) :=
      SocketAddress.encode_eq_ok_iff.mpr ⟨hfamily, ip, rfl, rfl⟩
    refine ⟨.inet ip port, ha, ?_, ?_⟩
    · intro half hhalf
      exact SocketAddress.read_write_inet ip port hhalf
    · intro m
      exact Engine.decodeAddress_encodeAddress m ha

end Proactor
