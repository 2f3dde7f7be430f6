import Proactor.Proofs.Halves

/-!
# Halves that keep apart

A half of any length, and what each writer leaves in it: the header, as much of the address as
there was room for, and behind it the bytes from before, which are never read. What is read is
told by the recorded bytes alone, and an address that is not understood still has all of them. The
two halves of a buffer may be written in either order, whatever its length is.
-/

namespace Proactor

/-! ### What bytes are read as -/

namespace Address

/-- The family number at the front of bytes is laid out as these two bytes again. -/
theorem ofNatLE_family (f0 f1 : UInt8) :
    Bytes.ofNatLE 2 (UInt16.ofNat (Bytes.toNatLE [f0, f1])).toNat = [f0, f1] := by
  have hwide : Bytes.toNatLE [f0, f1] < 256 ^ 2 := Bytes.toNatLE_lt [f0, f1]
  have hnumber : (UInt16.ofNat (Bytes.toNatLE [f0, f1])).toNat = Bytes.toNatLE [f0, f1] := by
    rw [UInt16.toNat_ofNat']
    omega
  rw [hnumber]
  exact Bytes.ofNatLE_toNatLE [f0, f1]

/-- Behind the family number of IPv4 there is a port and a host, if there are bytes enough. -/
theorem ofBytes_of_inet {f0 f1 : UInt8} {body : Bytes}
    (hfamily : UInt16.ofNat (Bytes.toNatLE [f0, f1]) = Family.inet) (hbody : 14 ≤ body.length) :
    ∃ host port, ofBytes (f0 :: f1 :: body) = inet host port := by
  match body with
  | p0 :: p1 :: a :: b :: c :: d :: rest =>
    refine ⟨⟨a, b, c, d⟩, UInt16.ofNat (Bytes.toNatBE [p0, p1]), ?_⟩
    simp only [ofBytes, hfamily, beq_self_eq_true, decide_eq_true hbody, Bool.and_self]
  | [] | [_] | [_, _] | [_, _, _] | [_, _, _, _] | [_, _, _, _, _] => simp at hbody

/-- All other bytes behind a family number are carried along. -/
theorem ofBytes_of_not_inet {f0 f1 : UInt8} {body : Bytes}
    (h : ¬ (UInt16.ofNat (Bytes.toNatLE [f0, f1]) = Family.inet ∧ 14 ≤ body.length)) :
    ofBytes (f0 :: f1 :: body) = foreign (UInt16.ofNat (Bytes.toNatLE [f0, f1])) body := by
  have hnot : (UInt16.ofNat (Bytes.toNatLE [f0, f1]) == Family.inet &&
      decide (14 ≤ body.length)) = false := by
    rw [← Bool.not_eq_true, Bool.and_eq_true, beq_iff_eq, decide_eq_true_eq]
    exact h
  simp only [ofBytes, hnot]

/-- Bytes are no address exactly if they are too few for a family number. -/
theorem ofBytes_eq_none_iff {bs : Bytes} : ofBytes bs = none ↔ bs.length < 2 := by
  constructor
  · intro h
    match bs with
    | [] => exact Nat.zero_lt_two
    | [f0] => exact Nat.one_lt_two
    | f0 :: f1 :: body =>
      by_cases hinet : UInt16.ofNat (Bytes.toNatLE [f0, f1]) = Family.inet ∧ 14 ≤ body.length
      · obtain ⟨host, port, hread⟩ := ofBytes_of_inet hinet.1 hinet.2
        cases hread.symm.trans h
      · cases (ofBytes_of_not_inet hinet).symm.trans h
  · exact ofBytes_of_length_lt

/-- An address that is not understood has all bytes it was read from, and no others are read as
this address. -/
theorem ofBytes_eq_foreign_iff {bs body : Bytes} {family : Family} :
    ofBytes bs = foreign family body ↔
      bs = Bytes.ofNatLE 2 family.toNat ++ body ∧ ¬ (family = Family.inet ∧ 14 ≤ body.length) := by
  constructor
  · intro h
    match bs with
    | [] => cases h
    | [f0] => cases h
    | f0 :: f1 :: rest =>
      by_cases hinet : UInt16.ofNat (Bytes.toNatLE [f0, f1]) = Family.inet ∧ 14 ≤ rest.length
      · obtain ⟨host, port, hread⟩ := ofBytes_of_inet hinet.1 hinet.2
        cases hread.symm.trans h
      · obtain ⟨rfl, rfl⟩ := Address.foreign.inj ((ofBytes_of_not_inet hinet).symm.trans h)
        rw [ofNatLE_family]
        exact ⟨rfl, hinet⟩
  · rintro ⟨rfl, hinet⟩
    have hwide := family.toNat_lt
    have hfamily : UInt16.ofNat (Bytes.toNatLE (Bytes.ofNatLE 2 family.toNat)) = family := by
      rw [Bytes.toNatLE_ofNatLE, Nat.mod_eq_of_lt (by omega), UInt16.ofNat_toNat]
    rw [← hfamily] at hinet
    refine (ofBytes_of_not_inet hinet).trans ?_
    exact congrArg (foreign · body) hfamily

end Address

namespace Half

variable {half : Bytes} {n : Nat} {a : SocketAddress} {near far : Option SocketAddress}

/-! ### What is read of a half -/

/-- The length that a half records. -/
def recorded (half : Bytes) : Nat := Bytes.toNatLE (half.take headerSize)

/-- The bytes behind the header that are recorded, as far as they are there. -/
def meaningful (half : Bytes) : Bytes := (half.drop headerSize).take (recorded half)

/-- A half is read as its recorded bytes; without room for a header there are none. -/
theorem read_eq_ofBytes (half : Bytes) : read half = Address.ofBytes (meaningful half) := by
  unfold read
  split
  · next h => rw [meaningful, List.drop_of_length_le (Nat.le_of_lt h), List.take_nil,
      Address.ofBytes_nil]
  · rfl

/-- Other bytes that are the same as far as these are recorded. -/
def RecordsSame (half half' : Bytes) : Prop :=
  half'.take (headerSize + recorded half) = half.take (headerSize + recorded half)

/-- Nothing is read behind the recorded bytes. -/
theorem RecordsSame.read_eq {half' : Bytes} (h : RecordsSame half half') :
    read half' = read half := by
  have hheader : half'.take headerSize = half.take headerSize := by
    have hfront := congrArg (List.take headerSize) h
    rwa [List.take_take, List.take_take, Nat.min_eq_left (Nat.le_add_right _ _)] at hfront
  have hrecorded : recorded half' = recorded half := congrArg Bytes.toNatLE hheader
  rw [read_eq_ofBytes, read_eq_ofBytes, meaningful, meaningful, hrecorded, List.take_drop,
    List.take_drop, h]

/-! ### What writers leave -/

/-- A half with an address written to it: the header, the front of the record for which there was
room, and behind it the bytes from before. -/
theorem write_eq_append (a : SocketAddress) (h : headerSize ≤ half.length) :
    write half (some a) = header (fitting half.length (some a)) ++
      (a.storage.take (fitting half.length (some a)) ++
        half.drop (headerSize + fitting half.length (some a))) := by
  have hfit : fitting half.length (some a) = min a.bytes.length (half.length - headerSize) := by
    rw [fitting, if_neg (Nat.not_lt.mpr h)]
  have hfront : a.bytes.take (half.length - headerSize) =
      a.storage.take (fitting half.length (some a)) := by
    rw [hfit, a.length_bytes, SocketAddress.bytes, List.take_take]
    apply List.take_eq_take_iff.mpr
    rw [a.length_storage]
    omega
  have hlength : (a.bytes.take (half.length - headerSize)).length =
      fitting half.length (some a) := by
    rw [List.length_take, hfit, Nat.min_comm]
  have hroom : (a.bytes.take (half.length - headerSize)).length ≤
      (half.drop headerSize).length := by
    rw [hlength, hfit, List.length_drop]
    exact Nat.min_le_right _ _
  rw [write, if_neg (Nat.not_lt.mpr h)]
  dsimp only
  rw [Bytes.overwrite, List.take_of_length_le hroom, hlength, hfront, List.drop_drop]

/-- A half that is too short for a header is never written. -/
theorem write_of_short (addr : Option SocketAddress) (h : half.length < headerSize) :
    write half addr = half := if_pos h

theorem setLength_of_short (n : Nat) (h : half.length < headerSize) : setLength half n = half :=
  if_pos h

/-! ### Two halves of a buffer -/

/-- A buffer with its first half written. -/
def writeNear (buffer : Bytes) (near : Option SocketAddress) : Bytes :=
  write (buffer.take (split buffer.length)) near ++ buffer.drop (split buffer.length)

/-- A buffer with its second half written. -/
def writeFar (buffer : Bytes) (far : Option SocketAddress) : Bytes :=
  buffer.take (split buffer.length) ++ write (buffer.drop (split buffer.length)) far

/-- A buffer that was cut where its halves meet has these halves. -/
theorem halves_of_append {first second buffer : Bytes}
    (hfirst : first.length = split buffer.length)
    (hlength : (first ++ second).length = buffer.length) :
    (first ++ second).take (split (first ++ second).length) = first ∧
      (first ++ second).drop (split (first ++ second).length) = second := by
  rw [hlength, ← hfirst]
  exact ⟨List.take_left, List.drop_left⟩

/-- Writing the first half leaves the second one as it is. -/
theorem halves_writeNear (buffer : Bytes) (near : Option SocketAddress) :
    (writeNear buffer near).length = buffer.length ∧
      (writeNear buffer near).take (split (writeNear buffer near).length) =
        write (buffer.take (split buffer.length)) near ∧
      (writeNear buffer near).drop (split (writeNear buffer near).length) =
        buffer.drop (split buffer.length) := by
  have hlength : (writeNear buffer near).length = buffer.length := by
    rw [writeNear, List.length_append, length_write, ← List.length_append, List.take_append_drop]
  exact ⟨hlength, halves_of_append (length_write_take buffer near) hlength⟩

/-- Writing the second half leaves the first one as it is. -/
theorem halves_writeFar (buffer : Bytes) (far : Option SocketAddress) :
    (writeFar buffer far).length = buffer.length ∧
      (writeFar buffer far).take (split (writeFar buffer far).length) =
        buffer.take (split buffer.length) ∧
      (writeFar buffer far).drop (split (writeFar buffer far).length) =
        write (buffer.drop (split buffer.length)) far := by
  have hlength : (writeFar buffer far).length = buffer.length := by
    rw [writeFar, List.length_append, length_write, ← List.length_append, List.take_append_drop]
  exact ⟨hlength, halves_of_append (length_take_split buffer) hlength⟩

/-- The order in which the halves are written does not matter. -/
theorem writeFar_writeNear (buffer : Bytes) (near far : Option SocketAddress) :
    writeFar (writeNear buffer near) far = writeAccept buffer near far := by
  obtain ⟨_, hfirst, hsecond⟩ := halves_writeNear buffer near
  rw [writeFar, hfirst, hsecond, writeAccept]

theorem writeNear_writeFar (buffer : Bytes) (near far : Option SocketAddress) :
    writeNear (writeFar buffer far) near = writeAccept buffer near far := by
  obtain ⟨_, hfirst, hsecond⟩ := halves_writeFar buffer far
  rw [writeNear, hfirst, hsecond, writeAccept]

/-! ### All of it -/

/-- What a half is, and is read as, after an address was written to it. -/
structure TakesAddress (half : Bytes) (a : SocketAddress) : Prop where
  /-- So many bytes of the record are taken: those that are recorded, that there are, and that
  there is room for. -/
  count : headerSize ≤ half.length →
    fitting half.length (some a) = min (min a.length.toNat 128) (half.length - headerSize)
  bytes : headerSize ≤ half.length →
    write half (some a) = header (fitting half.length (some a)) ++
      (a.storage.take (fitting half.length (some a)) ++
        half.drop (headerSize + fitting half.length (some a)))
  length : (write half (some a)).length = half.length
  /-- They are read back, whatever was there before. -/
  read : headerSize ≤ half.length →
    read (write half (some a)) = Address.ofBytes (a.storage.take (fitting half.length (some a)))

/-- What a half is, and is read as, after only its length was written. -/
structure TakesLength (half : Bytes) (n : Nat) : Prop where
  bytes : headerSize ≤ half.length →
    setLength half n = header (min n (half.length - headerSize)) ++ half.drop headerSize
  length : (setLength half n).length = half.length
  read : n < 2 ^ 32 → read (setLength half n) =
    Address.ofBytes ((half.drop headerSize).take (min n (half.length - headerSize)))

/-- What is read of a half, whatever its bytes are. -/
structure ReadsRecorded (half : Bytes) : Prop where
  /-- Other bytes behind those that are recorded make no difference. -/
  within : ∀ half', RecordsSame half half' → read half' = read half
  none_iff : read half = .none ↔ (meaningful half).length < 2
  inet_iff : ∀ host port, read half = .inet host port ↔
    ∃ rest, 8 ≤ rest.length ∧ meaningful half = Address.inetFront host port ++ rest
  /-- An address that is not understood tells all of the recorded bytes. -/
  foreign_iff : ∀ family body, read half = .foreign family body ↔
    meaningful half = Bytes.ofNatLE 2 family.toNat ++ body ∧
      ¬ (family = Family.inet ∧ 14 ≤ body.length)

/-- What is read of a buffer whose two halves are written one after the other. -/
structure KeepsApart (buffer : Bytes) (near far : Option SocketAddress) : Prop where
  nearFirst : readAccept (writeFar (writeNear buffer near) far) =
    (read (write (buffer.take (split buffer.length)) near),
      read (write (buffer.drop (split buffer.length)) far))
  farFirst : readAccept (writeNear (writeFar buffer far) near) =
    (read (write (buffer.take (split buffer.length)) near),
      read (write (buffer.drop (split buffer.length)) far))
  /-- Writing one half leaves the address in the other. -/
  nearOnly : readAccept (writeNear buffer near) =
    (read (write (buffer.take (split buffer.length)) near), (readAccept buffer).2)
  farOnly : readAccept (writeFar buffer far) =
    ((readAccept buffer).1, read (write (buffer.drop (split buffer.length)) far))

/-- What becomes of any bytes, as a half and as a buffer of two halves. -/
structure NeverMixes (bytes : Bytes) : Prop where
  address : ∀ a, TakesAddress bytes a
  length : ∀ n, TakesLength bytes n
  /-- An absent address, or no bytes of one, is read as none. -/
  absent : fitting bytes.length none = 0 ∧ read (write bytes none) = .none ∧
    read (setLength bytes 0) = .none
  /-- Bytes that are too few for a header are left alone, and read as no address. -/
  short : bytes.length < headerSize → read bytes = .none ∧
    (∀ addr, write bytes addr = bytes ∧ fitting bytes.length addr = 0) ∧
    ∀ n, setLength bytes n = bytes
  reads : ReadsRecorded bytes
  /-- Of two halves nothing is read but what each of them records. -/
  readsBoth : ∀ bytes', bytes'.length = bytes.length →
    RecordsSame (bytes.take (split bytes.length)) (bytes'.take (split bytes.length)) →
    RecordsSame (bytes.drop (split bytes.length)) (bytes'.drop (split bytes.length)) →
    readAccept bytes' = readAccept bytes
  /-- As the bytes that an address is read from, they are told by one that is not understood. -/
  raw : ∀ family body, Address.ofBytes bytes = .foreign family body →
    bytes = Bytes.ofNatLE 2 family.toNat ++ body
  apart : ∀ near far, KeepsApart bytes near far

theorem takesAddress (half : Bytes) (a : SocketAddress) : TakesAddress half a where
  count h := by rw [fitting, if_neg (Nat.not_lt.mpr h), a.length_bytes]
  bytes := write_eq_append a
  length := length_write half (some a)
  read h := by
    have hle : fitting half.length (some a) ≤ 128 := by
      rw [fitting, if_neg (Nat.not_lt.mpr h), a.length_bytes]
      omega
    have hlength : (a.storage.take (fitting half.length (some a))).length =
        fitting half.length (some a) := by
      rw [List.length_take, a.length_storage, Nat.min_eq_left hle]
    rw [write_eq_append a h, read_header_append _ (by omega), List.take_left' hlength]

theorem takesLength (half : Bytes) (n : Nat) : TakesLength half n where
  bytes h := if_neg (Nat.not_lt.mpr h)
  length := length_setLength half n
  read hn := by
    by_cases h : half.length < headerSize
    · rw [setLength_of_short n h, read, if_pos h, List.drop_of_length_le (Nat.le_of_lt h),
        List.take_nil, Address.ofBytes_nil]
    · rw [setLength, if_neg h, read_header_append _ (by omega)]

theorem readsRecorded (half : Bytes) : ReadsRecorded half where
  within _ := RecordsSame.read_eq
  none_iff := by rw [read_eq_ofBytes, Address.ofBytes_eq_none_iff]
  inet_iff host port := by rw [read_eq_ofBytes, Address.ofBytes_eq_inet_iff]
  foreign_iff family body := by rw [read_eq_ofBytes, Address.ofBytes_eq_foreign_iff]

theorem keepsApart (buffer : Bytes) (near far : Option SocketAddress) :
    KeepsApart buffer near far := by
  obtain ⟨_, hnear, hrest⟩ := halves_writeNear buffer near
  obtain ⟨_, hfront, hfar⟩ := halves_writeFar buffer far
  constructor
  · rw [writeFar_writeNear, readAccept_writeAccept_eq]
  · rw [writeNear_writeFar, readAccept_writeAccept_eq]
  · rw [readAccept, hnear, hrest, readAccept]
  · rw [readAccept, hfront, hfar, readAccept]

/-- Whatever bytes a half or a buffer of two halves holds, writers leave in it what is read back,
within its bounds, and nothing from before or from the other half is read with it. -/
theorem addresses_never_mix (bytes : Bytes) : NeverMixes bytes where
  address := takesAddress bytes
  length := takesLength bytes
  absent := by
    refine ⟨?_, read_write_none bytes, ?_⟩
    · unfold fitting
      split <;> rfl
    · rw [(takesLength bytes 0).read (by decide), Nat.zero_min, List.take_zero, Address.ofBytes_nil]
  short h := by
    refine ⟨if_pos h, ?_, fun n => setLength_of_short n h⟩
    intro addr
    exact ⟨write_of_short addr h, if_pos h⟩
  reads := readsRecorded bytes
  readsBoth bytes' hlength hnear hfar := by
    rw [readAccept, readAccept, hlength, hnear.read_eq, hfar.read_eq]
  raw family body h := (Address.ofBytes_eq_foreign_iff.mp h).1
  apart := keepsApart bytes

end Half

end Proactor
