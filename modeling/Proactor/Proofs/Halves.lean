import Proactor.Address.Half
import Proactor.Proofs.Bytes

/-!
# Reading halves back

What is read from a half depends only on what was written to it last: the header says how many
of the bytes behind it count, and those were written with it. What a writer had no bytes for
stays, and is never read.
-/

namespace Proactor

/-! ### Overwriting -/

/-- What is overwritten at the front stays behind it. -/
theorem Bytes.getElem?_overwrite {dst src : Bytes} {i : Nat} (h : src.length ≤ i) :
    (Bytes.overwrite dst src)[i]? = dst[i]? := by
  rw [Bytes.overwrite]
  by_cases hout : dst.length ≤ i
  · rw [List.getElem?_eq_none hout, List.getElem?_eq_none]
    rw [List.length_append, List.length_take, List.length_drop]
    omega
  · have hfront : (src.take dst.length).length = src.length := by
      rw [List.length_take]
      omega
    rw [List.getElem?_append_right (by omega), hfront, List.getElem?_drop]
    congr 1
    omega

/-! ### Addresses in bytes -/

namespace Address

/-- Fewer bytes than a family number has are no address. -/
theorem ofBytes_of_length_lt {bs : Bytes} (h : bs.length < 2) : ofBytes bs = none := by
  match bs with
  | [] => rfl
  | [f0] => rfl
  | f0 :: f1 :: body =>
    simp only [List.length_cons] at h
    omega

/-- The front of an IPv4 address: its family, its port and its host, in 8 bytes. -/
def inetFront (host : Ipv4) (port : UInt16) : Bytes :=
  Bytes.ofNatLE 2 Family.inet.toNat ++ Bytes.ofNatBE 2 port.toNat ++ host.bytes

@[simp] theorem length_inetFront (host : Ipv4) (port : UInt16) :
    (inetFront host port).length = 8 := by
  simp [inetFront, Ipv4.bytes]

/-- The bytes of an IPv4 address are its front, and 8 more or longer. -/
theorem ofBytes_eq_inet_iff {bs : Bytes} {host : Ipv4} {port : UInt16} :
    ofBytes bs = inet host port ↔ ∃ rest, 8 ≤ rest.length ∧ bs = inetFront host port ++ rest := by
  constructor
  · intro h
    unfold ofBytes at h
    split at h
    · next f0 f1 body =>
      dsimp only at h
      split at h
      · next p0 p1 a b c d rest hinet =>
        simp only [Bool.and_eq_true, beq_iff_eq, decide_eq_true_eq, List.length_cons] at hinet
        obtain ⟨hfamily, hlength⟩ := hinet
        obtain ⟨rfl, rfl⟩ := Address.inet.inj h
        have hwide : Bytes.toNatLE [f0, f1] < 256 ^ 2 := Bytes.toNatLE_lt [f0, f1]
        have hnumber : Bytes.toNatLE [f0, f1] = Family.inet.toNat := by
          rw [← hfamily, UInt16.toNat_ofNat']
          omega
        have hport : (UInt16.ofNat (Bytes.toNatBE [p0, p1])).toNat = Bytes.toNatBE [p0, p1] := by
          have hwide : Bytes.toNatLE [p1, p0] < 256 ^ 2 := Bytes.toNatLE_lt [p1, p0]
          have hsame : Bytes.toNatBE [p0, p1] = Bytes.toNatLE [p1, p0] := rfl
          rw [UInt16.toNat_ofNat']
          omega
        refine ⟨rest, by omega, ?_⟩
        have hf : Bytes.ofNatLE 2 (Bytes.toNatLE [f0, f1]) = [f0, f1] :=
          Bytes.ofNatLE_toNatLE [f0, f1]
        have hp : Bytes.ofNatBE 2 (Bytes.toNatBE [p0, p1]) = [p0, p1] :=
          Bytes.ofNatBE_toNatBE [p0, p1]
        rw [inetFront, ← hnumber, hf, hport, hp]
        rfl
      · cases h
    · cases h
  · rintro ⟨rest, hrest, rfl⟩
    have hp := port.toNat_lt
    have hport : UInt16.ofNat (Bytes.toNatBE (Bytes.ofNatBE 2 port.toNat)) = port := by
      rw [Bytes.toNatBE_ofNatBE, Nat.mod_eq_of_lt (by omega), UInt16.ofNat_toNat]
    have hfamily : UInt16.ofNat (Bytes.toNatLE [2, 0]) = Family.inet := by decide
    let p0 := UInt8.ofNat (port.toNat / 256)
    let p1 := UInt8.ofNat port.toNat
    have hfront : inetFront host port ++ rest =
        2 :: 0 :: p0 :: p1 :: host.a :: host.b :: host.c :: host.d :: rest := rfl
    have hlength : 14 ≤ (p0 :: p1 :: host.a :: host.b :: host.c :: host.d :: rest).length := by
      simp only [List.length_cons]
      omega
    have hinet : (UInt16.ofNat (Bytes.toNatLE [2, 0]) == Family.inet &&
        decide (14 ≤ (p0 :: p1 :: host.a :: host.b :: host.c :: host.d :: rest).length)) = true := by
      rw [hfamily, beq_self_eq_true, decide_eq_true hlength, Bool.and_self]
    rw [hfront]
    unfold ofBytes
    dsimp only
    rw [hinet]
    exact congrArg (inet host) hport

/-- An IPv4 address is read in full when 16 of its bytes are there. -/
theorem ofBytes_take_of_inet {bs : Bytes} {host : Ipv4} {port : UInt16} {n : Nat}
    (h : ofBytes bs = inet host port) (hn : 16 ≤ n) : ofBytes (bs.take n) = inet host port := by
  obtain ⟨rest, hrest, rfl⟩ := ofBytes_eq_inet_iff.mp h
  apply ofBytes_eq_inet_iff.mpr
  refine ⟨rest.take (n - 8), ?_, ?_⟩
  · rw [List.length_take]
    omega
  · rw [List.take_append, length_inetFront, List.take_of_length_le]
    rw [length_inetFront]
    omega

/-- The record bytes of an IPv4 address are read as that address. -/
theorem ofBytes_inetBytes (host : Ipv4) (port : UInt16) :
    ofBytes (inetBytes host port) = inet host port :=
  ofBytes_eq_inet_iff.mpr ⟨Bytes.zeros 8, by simp, rfl⟩

end Address

/-- The address of an IPv4 record. -/
theorem SocketAddress.address_inet (host : Ipv4) (port : UInt16) :
    (SocketAddress.inet host port).address = .inet host port := by
  rw [SocketAddress.address, SocketAddress.bytes_inet, Address.ofBytes_inetBytes]

/-! ### One half -/

namespace Half

variable {half : Bytes} {n : Nat}

/-- A header is read as the length that it records. -/
theorem toNatLE_header (h : n < 2 ^ 32) : Bytes.toNatLE (header n) = n := by
  rw [header, Bytes.toNatLE_ofNatLE]
  exact Nat.mod_eq_of_lt h

/-- A half is read as far as its header says. -/
theorem read_header_append (body : Bytes) (h : n < 2 ^ 32) :
    read (header n ++ body) = Address.ofBytes (body.take n) := by
  have hlength : ¬ (header n ++ body).length < headerSize := by
    rw [List.length_append, length_header]
    omega
  have htake : (header n ++ body).take headerSize = header n := by
    rw [← length_header n, List.take_left]
  have hdrop : (header n ++ body).drop headerSize = body := by
    rw [← length_header n, List.drop_left]
  simp only [read, if_neg hlength, htake, hdrop, toNatLE_header h]

/-- A half with an address written to it is read as the front of that address for which there
was room. -/
theorem read_write (a : SocketAddress) (h : headerSize ≤ half.length) :
    read (write half (some a)) = Address.ofBytes (a.bytes.take (half.length - headerSize)) := by
  have hbytes := a.length_bytes
  let front := a.bytes.take (half.length - headerSize)
  have hfront : front.length ≤ half.length - headerSize := List.length_take_le _ _
  have hroom : front.length ≤ (half.drop headerSize).length := by
    rw [List.length_drop]
    exact hfront
  have hwide : front.length < 2 ^ 32 := by
    have hle : front.length ≤ a.bytes.length := List.length_take_le' _ _
    omega
  rw [write, if_neg (Nat.not_lt.mpr h)]
  change read (header front.length ++ _) = Address.ofBytes front
  rw [read_header_append _ hwide, Bytes.take_overwrite _ _ hroom]

/-- A half with an absent address written to it is read as no address. -/
theorem read_write_none (half : Bytes) : read (write half none) = .none := by
  by_cases h : half.length < headerSize
  · rw [write, if_pos h, read, if_pos h]
  · rw [write, if_neg h]
    exact read_header_append _ (by decide)

/-- A half with only its length written is read as far as that, if there are so many bytes. -/
theorem read_setLength (h : headerSize ≤ half.length)
    (hwide : min n (half.length - headerSize) < 2 ^ 32) :
    read (setLength half n) = Address.ofBytes ((half.drop headerSize).take n) := by
  have htake : (half.drop headerSize).take (min n (half.length - headerSize)) =
      (half.drop headerSize).take n := by
    rw [← List.length_drop, ← List.take_eq_take_min]
  rw [setLength, if_neg (Nat.not_lt.mpr h), read_header_append _ hwide, htake]

/-- Behind the header and what was written, a half is as it was. -/
theorem getElem?_write {addr : Option SocketAddress} {i : Nat} (h : headerSize ≤ half.length)
    (hi : headerSize + fitting half.length addr ≤ i) : (write half addr)[i]? = half[i]? := by
  have hbehind : ∀ front : Bytes, headerSize + front.length ≤ i →
      (header front.length ++ Bytes.overwrite (half.drop headerSize) front)[i]? = half[i]? := by
    intro front hfront
    rw [List.getElem?_append_right (by rw [length_header]; omega), length_header,
      Bytes.getElem?_overwrite (by omega), List.getElem?_drop]
    congr 1
    omega
  unfold write
  rw [if_neg (Nat.not_lt.mpr h)]
  apply hbehind
  cases addr with
  | none => exact Nat.le_trans (Nat.le_add_right _ _) hi
  | some a =>
    rw [fitting, if_neg (Nat.not_lt.mpr h)] at hi
    rw [List.length_take, Nat.min_comm]
    exact hi

/-- Behind the header nothing changes when only the length is written. -/
theorem drop_setLength (h : headerSize ≤ half.length) :
    (setLength half n).drop headerSize = half.drop headerSize := by
  rw [setLength, if_neg (Nat.not_lt.mpr h)]
  exact List.drop_left' (length_header _)

/-- The header holds no more than there is behind it. -/
theorem take_setLength (h : headerSize ≤ half.length) :
    (setLength half n).take headerSize = header (min n (half.length - headerSize)) := by
  rw [setLength, if_neg (Nat.not_lt.mpr h)]
  exact List.take_left' (length_header _)

/-! ### Two halves -/

variable {buffer : Bytes} {near far : Option SocketAddress}

/-- The address that a half of `n` bytes is read as when this one was written to it. -/
def readBack (n : Nat) : Option SocketAddress → Address
  | some a => Address.ofBytes (a.bytes.take (n - headerSize))
  | none => .none

theorem read_write_eq_readBack (addr : Option SocketAddress) (h : headerSize ≤ half.length) :
    read (write half addr) = readBack half.length addr := by
  cases addr with
  | none => exact read_write_none half
  | some a => exact read_write a h

/-- A buffer that an accept fills has room for a header, and more, in both of its halves. -/
theorem headerSize_le_split {n : Nat} (h : minAcceptSize ≤ n) :
    headerSize + 16 ≤ split n ∧ headerSize + 16 ≤ n - split n := by
  simp only [minAcceptSize, minSize, headerSize, split] at h ⊢
  omega

/-- The first half is cut where the split is. -/
theorem length_take_split (buffer : Bytes) :
    (buffer.take (split buffer.length)).length = split buffer.length := by
  rw [List.length_take]
  exact Nat.min_eq_left (Nat.div_le_self _ _)

/-- The first half of a buffer that was written to is cut where it was before. -/
theorem length_write_take (buffer : Bytes) (near : Option SocketAddress) :
    (write (buffer.take (split buffer.length)) near).length = split buffer.length :=
  (length_write _ near).trans (length_take_split buffer)

/-- Each half of an accept buffer is read as it was written, whatever its length is. -/
theorem readAccept_writeAccept_eq (buffer : Bytes) (near far : Option SocketAddress) :
    readAccept (writeAccept buffer near far) =
      (read (write (buffer.take (split buffer.length)) near),
        read (write (buffer.drop (split buffer.length)) far)) := by
  rw [readAccept, length_writeAccept, writeAccept, List.take_left' (length_write_take buffer near),
    List.drop_left' (length_write_take buffer near)]

/-- Both ends written to an accept buffer are read back, each as far as its half has room. -/
theorem readAccept_writeAccept (h : minAcceptSize ≤ buffer.length) :
    readAccept (writeAccept buffer near far) =
      (readBack (split buffer.length) near, readBack (buffer.length - split buffer.length) far) := by
  have hroom := headerSize_le_split h
  have hfirst := length_take_split buffer
  have hsecond : (buffer.drop (split buffer.length)).length =
      buffer.length - split buffer.length := List.length_drop
  rw [readAccept_writeAccept_eq, read_write_eq_readBack near (by omega),
    read_write_eq_readBack far (by omega), hfirst, hsecond]

/-- Outside of the two headers and of what was written behind them, an accept buffer is as it
was. -/
theorem getElem?_writeAccept {i : Nat} (h : minAcceptSize ≤ buffer.length)
    (hi : (headerSize + fitting (split buffer.length) near ≤ i ∧ i < split buffer.length) ∨
      split buffer.length + headerSize + fitting (buffer.length - split buffer.length) far ≤ i) :
    (writeAccept buffer near far)[i]? = buffer[i]? := by
  have hroom := headerSize_le_split h
  have hfirst := length_take_split buffer
  have hsecond : (buffer.drop (split buffer.length)).length =
      buffer.length - split buffer.length := List.length_drop
  have hwritten := length_write_take buffer near
  rw [writeAccept]
  rcases hi with ⟨hi, hlt⟩ | hi
  · rw [List.getElem?_append_left (by omega), getElem?_write (by omega) (by rw [hfirst]; exact hi),
      List.getElem?_take_of_lt hlt]
  · rw [List.getElem?_append_right (by omega), hwritten,
      getElem?_write (by omega) (by rw [hsecond]; omega), List.getElem?_drop]
    congr 1
    omega

/-- An IPv4 record is read back exactly from any half that is large enough for it. -/
theorem readBack_of_inet {a : SocketAddress} {host : Ipv4} {port : UInt16} {n : Nat}
    (ha : a.address = .inet host port) (hn : headerSize + 16 ≤ n) :
    readBack n (some a) = .inet host port :=
  Address.ofBytes_take_of_inet ha (by omega)

end Half

end Proactor
