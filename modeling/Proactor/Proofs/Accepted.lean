import Proactor.Proofs.Halves
import Proactor.Proofs.Retrieval

/-!
# Accepted connections

What becomes of an accept when its completion is retrieved. A connection is moved to the
descriptor chosen for it, and its own descriptor is closed whether or not that could be done. Both
halves of the output buffer are written in every case, so that no address from before is read
there, and they are written before the callback is called.
-/

namespace Proactor

variable {P H : Type}

/-- The record of its peer that a port leaves to an accept, as far as there was room. -/
def Transfer.peer (t : Transfer) : SocketAddress where
  storage := Bytes.overwrite SocketAddress.empty.storage (t.name.getD [])
  length := UInt32.ofNat (Pinned.recordedLength t SocketAddress.empty.length.toNat)
  length_storage := by simp [SocketAddress.empty.length_storage]

/-- The descriptor that a result names. -/
def Completion.descriptor (c : Completion) : Fd := Int32.ofInt c.result.toInt

/-- Behind both headers of an accept buffer of `n` bytes and what is written behind them. -/
def Half.Outside (n : Nat) (near far : Option SocketAddress) (i : Nat) : Prop :=
  (headerSize + fitting (split n) near ≤ i ∧ i < split n) ∨
    split n + headerSize + fitting (n - split n) far ≤ i

/-- Both ends of a connection are in an accept buffer that held these bytes. -/
structure RecordsEnds (m : Memory) (output : StorageId) (before : Bytes)
    (near far : Option SocketAddress) : Prop where
  /-- The buffer can be looked at. -/
  idle : m.isIdle output = true
  /-- Each end is read as far as its half has room for it, whatever was there before. -/
  addresses : Engine.acceptAddresses m output =
    (Half.readBack (Half.split before.length) near,
      Half.readBack (before.length - Half.split before.length) far)
  /-- There always is room for an IPv4 address. -/
  nearExact : ∀ a ip port, near = some a → a.address = .inet ip port →
    (Engine.acceptAddresses m output).1 = .inet ip port
  farExact : ∀ a ip port, far = some a → a.address = .inet ip port →
    (Engine.acceptAddresses m output).2 = .inet ip port
  /-- Nothing else is written. -/
  outside : ∀ i, Half.Outside before.length near far i → (m.bytes output)[i]? = before[i]?
  length : (m.bytes output).length = before.length

/-! ### Settling an accept -/

namespace World

variable [Os H]

/-- The world with both ends written to an accept buffer that is given back then, on a host that
may have changed. -/
def withEnds (w : World H) (host : H) (output : StorageId) (near far : Option SocketAddress) :
    World H :=
  { w with host, memory := (w.writeHalves output near far).memory.releaseAll [output] }

variable {w : World H} {output : StorageId} {onto : Fd} {c : Completion}

/-- An accept that failed touches no descriptor. -/
theorem settle_accept_of_neg (moved : Transfer) (hr : c.result.toInt < 0) :
    w.settle (.accepting SocketAddress.empty output onto) c.result moved =
      (w.withEnds w.host output none none, c.result) := by
  simp only [settle, Pinned.land, finish, if_pos hr]
  rfl

/-- A connection that cannot be moved is closed. -/
theorem settle_accept_of_error (moved : Transfer) {e : Errno} (hr : 0 ≤ c.result.toInt)
    (he : (Os.duplicate w.host c.descriptor onto).2 = .error e) :
    w.settle (.accepting SocketAddress.empty output onto) c.result moved =
      (w.withEnds (Os.close (Os.duplicate w.host c.descriptor onto).1 c.descriptor) output none none,
        Int64.ofInt (-e.toInt)) := by
  cases hd : Os.duplicate w.host c.descriptor onto with
  | mk host answer =>
    rw [hd] at he
    obtain rfl : answer = .error e := he
    have hd' : Os.duplicate w.host (Int32.ofInt c.result.toInt) onto = (host, .error e) := hd
    simp only [settle, Pinned.land, finish, if_neg (Int.not_lt.mpr hr), moveAccepted, hd']
    rfl

/-- A connection that was moved is closed under its own descriptor, and both of its ends are asked
for under the new one. -/
theorem settle_accept_of_ok (moved : Transfer) (hr : 0 ≤ c.result.toInt)
    (hok : (Os.duplicate w.host c.descriptor onto).2 = .ok ()) :
    let host := Os.close (Os.duplicate w.host c.descriptor onto).1 c.descriptor
    w.settle (.accepting SocketAddress.empty output onto) c.result moved =
      (w.withEnds host output (Os.socketName host onto) (some moved.peer), 0) := by
  cases hd : Os.duplicate w.host c.descriptor onto with
  | mk host answer =>
    rw [hd] at hok
    obtain rfl : answer = .ok () := hok
    have hd' : Os.duplicate w.host (Int32.ofInt c.result.toInt) onto = (host, .ok ()) := hd
    simp only [settle, Pinned.land, finish, if_neg (Int.not_lt.mpr hr), moveAccepted, hd']
    rfl

omit [Os H] in
/-- Both ends can be read from the buffer, and nothing else in it has changed. -/
theorem recordsEnds_withEnds (host : H) {near far : Option SocketAddress}
    (hlent : w.memory.lend? output = some .lent)
    (hroom : Half.minAcceptSize ≤ (w.memory.bytes output).length) :
    RecordsEnds (w.withEnds host output near far).memory output (w.memory.bytes output) near far :=
    by
  have hbytes : (w.withEnds host output near far).memory.bytes output =
      Half.writeAccept (w.memory.bytes output) near far :=
    (Memory.bytes_releaseAll _ _ _).trans (Memory.bytes_modifyBytes_self _ _ hlent)
  have hidle : (w.withEnds host output near far).memory.lend? output = some .idle := by
    rw [withEnds, Memory.lend?_releaseAll, if_pos List.mem_cons_self, writeHalves,
      Memory.lend?_modifyBytes, hlent, Option.map_some]
  have haddresses : Engine.acceptAddresses (w.withEnds host output near far).memory output =
      (Half.readBack (Half.split (w.memory.bytes output).length) near,
        Half.readBack ((w.memory.bytes output).length -
          Half.split (w.memory.bytes output).length) far) := by
    rw [Engine.acceptAddresses, Memory.read?_of_idle hidle, hbytes, Option.map_some,
      Option.getD_some, Half.readAccept_writeAccept hroom]
  obtain ⟨hnear, hfar⟩ := Half.headerSize_le_split hroom
  refine ⟨(Memory.isIdle_eq_true_iff _ _).mpr hidle, haddresses, ?_, ?_, ?_, ?_⟩
  · rintro a ip port rfl ha
    rw [haddresses]
    exact Half.readBack_of_inet ha hnear
  · rintro a ip port rfl ha
    rw [haddresses]
    exact Half.readBack_of_inet ha hfar
  · intro i hi
    rw [hbytes]
    exact Half.getElem?_writeAccept hroom hi
  · rw [hbytes, Half.length_writeAccept]

end World

/-! ### What the callback is told -/

namespace Outcome

/-- A failure is told by its error number, if that fits. -/
theorem error_ofResult_of_neg {result : Int64} (h : result.toInt < 0)
    (hlow : -0x80000000 < result.toInt) : (ofResult result).error.toInt = -result.toInt := by
  rw [ofResult, if_pos h]
  exact Int32.toInt_ofInt_of_le (by omega) (by omega)

/-- The negated error number of a call of the host is told as that error number. -/
theorem ofResult_neg_errno {e : Errno} (h : 0 < e.toInt) :
    ofResult (Int64.ofInt (-e.toInt)) = ⟨e, 0⟩ := by
  have he := e.toInt_lt
  have hresult : (Int64.ofInt (-e.toInt)).toInt = -e.toInt :=
    Int64.toInt_ofInt_of_le (by omega) (by omega)
  rw [ofResult, hresult, if_pos (by omega), Int.neg_neg, Int32.ofInt_toInt]

end Outcome

/-! ### From submission to callback -/

/-- What the callback of an accept finds, whose output buffer held these bytes. -/
structure PutRight [Os H] (before : Bytes) (onto : Fd) (output : StorageId) (cb : Callback)
    (seen : Engine P H) (c : Completion) (moved : Transfer) (ran : Option (Callback × Outcome))
    (s : Scene P H) : Prop where
  /-- The callback has been called and has done nothing yet. -/
  inside : ∃ context, s.running = some context ∧ context.callback = cb
  /-- The descriptor of the connection is the result. -/
  descriptor : c.descriptor.toInt = c.result.toInt
  failed : c.result.toInt < 0 →
    s.engine.world.host = seen.world.host ∧
    (∃ o, ran = some (cb, o) ∧ o.error.toInt = -c.result.toInt ∧ o.bytes = 0) ∧
    RecordsEnds s.engine.world.memory output before none none
  refused : 0 ≤ c.result.toInt →
    ∀ e, (Os.duplicate seen.world.host c.descriptor onto).2 = .error e →
      s.engine.world.host =
        Os.close (Os.duplicate seen.world.host c.descriptor onto).1 c.descriptor ∧
      (0 < e.toInt → ran = some (cb, ⟨e, 0⟩)) ∧
      RecordsEnds s.engine.world.memory output before none none
  moved : 0 ≤ c.result.toInt → (Os.duplicate seen.world.host c.descriptor onto).2 = .ok () →
    s.engine.world.host =
      Os.close (Os.duplicate seen.world.host c.descriptor onto).1 c.descriptor ∧
    ran = some (cb, ⟨0, 0⟩) ∧
    RecordsEnds s.engine.world.memory output before (Os.socketName s.engine.world.host onto)
      (some moved.peer)

/-- An accept is submitted with a buffer that is large enough for both ends. -/
theorem Order.prepare_accept {m m' : Memory} {x : Extensions} {fd onto : Fd} {output : StorageId}
    {sub : Submission} (h : (Order.accept fd onto output).prepare m x = .ok (m', sub)) :
    Half.minAcceptSize ≤ m.capacity output ∧
      sub.pinned = .accepting SocketAddress.empty output onto := by
  simp only [prepare, Submission.accept] at h
  split at h
  · cases h
  · next hroom =>
    split at h
    · cases h
    · obtain ⟨m₁, _, h⟩ := exists_of_bind_ok h
      cases h
      exact ⟨Nat.not_lt.mp hroom, rfl⟩

variable [Os H]

/-- When an accept is settled its callback finds everything put right. -/
theorem Context.Settles.putRight {context : Context} {content : StorageId → Bytes}
    {seen : Engine P H} {c : Completion} {moved : Transfer} {ran : Option (Callback × Outcome)}
    {s : Scene P H} {output : StorageId} {onto : Fd}
    (h : context.Settles content seen c moved ran s)
    (hpinned : context.pinned = .accepting SocketAddress.empty output onto)
    (hroom : Half.minAcceptSize ≤ (content output).length)
    (hlow : -0x80000000 < c.result.toInt) (hhigh : c.result.toInt < 0x80000000) :
    PutRight (content output) onto output context.callback seen c moved ran s := by
  obtain ⟨hbytes, hlent⟩ := h.held output (by simp [hpinned, Pinned.leases])
  rw [← hbytes] at hroom ⊢
  -- However it is settled, the scene has the host and the buffer, and the callback the result.
  have hsettled : ∀ {host : H} {near far : Option SocketAddress} {result : Int64},
      seen.world.settle context.pinned c.result moved =
        (seen.world.withEnds host output near far, result) →
      s.engine.world.host = host ∧ ran = some (context.callback, .ofResult result) ∧
        RecordsEnds s.engine.world.memory output (seen.world.memory.bytes output) near far := by
    intro host near far result hsettle
    refine ⟨?_, ?_, ?_⟩
    · rw [h.host, hsettle]
      rfl
    · rw [h.ran, hsettle]
    · rw [h.memory, hsettle]
      exact World.recordsEnds_withEnds host hlent hroom
  refine ⟨⟨context, h.running, rfl⟩, Int32.toInt_ofInt_of_le (Int.le_of_lt hlow) hhigh, ?_, ?_, ?_⟩
  · intro hr
    obtain ⟨hhost, hran, hends⟩ := hsettled (by rw [hpinned, World.settle_accept_of_neg moved hr])
    exact ⟨hhost, ⟨_, hran, Outcome.error_ofResult_of_neg hr hlow,
      Outcome.bytes_ofResult_of_neg hr⟩, hends⟩
  · intro hr e he
    obtain ⟨hhost, hran, hends⟩ :=
      hsettled (by rw [hpinned, World.settle_accept_of_error moved hr he])
    refine ⟨hhost, ?_, hends⟩
    intro hpos
    rw [hran, Outcome.ofResult_neg_errno hpos]
  · intro hr hok
    obtain ⟨hhost, hran, hends⟩ := hsettled (by rw [hpinned, World.settle_accept_of_ok moved hr hok])
    rw [hhost]
    exact ⟨rfl, hran, hends⟩

variable [CompletionPort P H]

/-- Whenever the completion of the accept that is in flight under a token is retrieved, its callback
finds everything put right. -/
def PutsRight (before : Bytes) (onto : Fd) (output : StorageId) (cb : Callback) (t : Token)
    (τ : List (Moment P H)) : Prop :=
  ∀ τ₁ seen c moved ran s τ₂, τ = τ₁ ++ (.completed seen c moved ran, s) :: τ₂ →
    (∀ y ∈ τ₁, ¬ y.1.Ends t) → c.token = t →
    -0x80000000 < c.result.toInt → c.result.toInt < 0x80000000 →
    PutRight before onto output cb seen c moved ran s

/-- Whatever a program does, and whatever comes of an accept, its callback finds the connection
under the descriptor chosen for it or closed, and in the output buffer the two ends of this
connection or none, whatever the buffer held before. A token has `2 ^ 32` indices; with more slots
than that, which takes as many submissions, two operations would share one. -/
theorem accepted_connections_are_put_right {config : Config} {port : P} {host : H}
    {e : Engine P H} (h : Engine.build config port host = .ready e) (steps : List (Step H))
    (fd onto : Fd) (handle : String) (output : StorageId) (cb : Callback) (t : Token)
    (later : List (Step H))
    (hresolve : ((Client.own e).after steps).resolve (.accept fd onto handle) =
      some (.accept fd onto output))
    (hok : (((Client.own e).after steps).step (.place (.accept fd onto handle) cb)).2 =
      .submitted (.ok t))
    (hroom : (((Client.own e).after steps).after
      (.place (.accept fd onto handle) cb :: later)).engine.slab.slots.length ≤ 2 ^ 32) :
    Half.minAcceptSize ≤ ((Client.own e).after steps).engine.world.memory.capacity output ∧
      PutsRight (((Client.own e).after steps).engine.world.memory.bytes output) onto output cb t
        (((Client.own e).after steps).history (.place (.accept fd onto handle) cb :: later)) := by
  obtain ⟨x, m, sub, hprep, hsettles⟩ := Client.settles_of_place h steps hresolve hok hroom
  obtain ⟨hsize, hpinned⟩ := Order.prepare_accept hprep
  refine ⟨hsize, ?_⟩
  intro τ₁ seen c moved ran s τ₂ hτ hnot ht hlow hhigh
  obtain ⟨hsettle, _⟩ := hsettles τ₁ seen c moved ran s τ₂ hτ hnot ht
  exact hsettle.putRight hpinned hsize hlow hhigh

/-- A host on which a socket is open. -/
def Host.withSocket : Host := (Host.start.makeInet .stream).1

/-- A port that hands back that socket as an accepted connection, and an address of its peer. -/
def Scripted.accepting : Scripted :=
  { waits := [.completion (.user 0) 3 0
      { name := some (Address.inetBytes ⟨10, 0, 0, 7⟩ 5000), nameLength := some 16 }] }

theorem accepted_connections_are_put_right_of_socket : ∃ e : Engine Scripted Host,
    Engine.build {} Scripted.accepting Host.withSocket = .ready e ∧
    let c := (Client.own e).after [.buffer "ends" (List.replicate 41 7)]
    let run : List (Step Host) := [.place (.accept 3 6 "ends") ⟨"accepted", []⟩, .pump none 9]
    c.resolve (.accept 3 6 "ends") = some (.accept 3 6 1) ∧
    (c.step (.place (.accept 3 6 "ends") ⟨"accepted", []⟩)).2 =
      .submitted (.ok (Token.ofSlot 1 0)) ∧
    (c.after run).engine.slab.slots.length ≤ 2 ^ 32 ∧
    PutsRight (c.engine.world.memory.bytes 1) 6 1 ⟨"accepted", []⟩ (Token.ofSlot 1 0)
      (c.history run) ∧
    (c.history run).map (fun m => Engine.acceptAddresses m.2.engine.world.memory 1) =
      [(.none, .none), (.none, .none),
        (.inet ⟨127, 0, 0, 1⟩ 52817, .inet ⟨10, 0, 0, 7⟩ 5000),
        (.inet ⟨127, 0, 0, 1⟩ 52817, .inet ⟨10, 0, 0, 7⟩ 5000)] := by
  refine ⟨_, rfl, rfl, rfl, by decide +kernel, ?_, by decide +kernel⟩
  exact (@accepted_connections_are_put_right Scripted Host _ _ {} Scripted.accepting
    Host.withSocket _ rfl [.buffer "ends" (List.replicate 41 7)] 3 6 "ends" 1 ⟨"accepted", []⟩
    (Token.ofSlot 1 0) [.pump none 9] rfl rfl (by decide +kernel)).2

end Proactor
