import Proactor.Proofs.Halves
import Proactor.Proofs.Retrieval

/-!
# Names of senders

What becomes of the address buffer of a receive when its completion is retrieved. The port stores
the name of the sender behind the header, as far as there is room, and records how long the name
is, which may be more; the length is then written to the header, cut to the room there is. So the
name is read as far as it was stored, and never what an earlier sender left behind it.
-/

namespace Proactor

variable {P H : Type}

/-- The port stored as much of a name as there was room for, and recorded how long the name is. -/
structure Transfer.Names (t : Transfer) (room : Nat) (name : Bytes) : Prop where
  stored : (t.name.getD []).take room = name.take room
  recorded : Pinned.recordedLength t room = name.length

/-- The address buffer of a receive with room for this many bytes behind the header, and these
bytes there before, after the port stored a name and a length was recorded. -/
def Half.received (before : Bytes) (t : Transfer) (n : Nat) : Bytes :=
  setLength (Bytes.overwriteFrom before headerSize
    ((t.name.getD []).take (before.length - headerSize))) n

namespace Half

variable {before : Bytes} {t : Transfer} {n : Nat} {name : Bytes}

/-- Behind the header stands what the port stored there, and what it left. -/
theorem drop_received (t : Transfer) (n : Nat) (h : headerSize ≤ before.length) :
    (received before t n).drop headerSize = Bytes.overwrite (before.drop headerSize)
      ((t.name.getD []).take (before.length - headerSize)) := by
  rw [received, drop_setLength (by simpa using h), Bytes.overwriteFrom]
  apply List.drop_left'
  rw [List.length_take]
  omega

/-- The header never says more than there is room for. -/
theorem toNatLE_take_received (t : Transfer) (n : Nat) (h : headerSize ≤ before.length)
    (hnarrow : before.length < 2 ^ 32) :
    Bytes.toNatLE ((received before t n).take headerSize) = min n (before.length - headerSize) := by
  rw [received, take_setLength (by simpa using h), Bytes.length_overwriteFrom]
  exact toNatLE_header (by omega)

/-- The buffer is read as far as the length that was recorded. -/
theorem read_received (t : Transfer) (n : Nat) (h : headerSize ≤ before.length)
    (hnarrow : before.length < 2 ^ 32) : read (received before t n) =
      Address.ofBytes ((Bytes.overwrite (before.drop headerSize)
        ((t.name.getD []).take (before.length - headerSize))).take n) := by
  have hdrop := drop_received t n h
  have hlength : headerSize ≤ (Bytes.overwriteFrom before headerSize
      ((t.name.getD []).take (before.length - headerSize))).length := by simpa using h
  rw [received] at hdrop ⊢
  rw [read_setLength hlength (by rw [Bytes.length_overwriteFrom]; omega), ← drop_setLength hlength,
    hdrop]

/-- A name that was stored and recorded is read as far as there was room for it. -/
theorem read_received_of_names (h : headerSize ≤ before.length) (hnarrow : before.length < 2 ^ 32)
    (hname : t.Names (before.length - headerSize) name) :
    read (received before t name.length) =
      Address.ofBytes (name.take (before.length - headerSize)) := by
  have hroom : (name.take (before.length - headerSize)).length ≤ (before.drop headerSize).length :=
    by
      rw [List.length_drop, List.length_take]
      omega
  rw [read_received t _ h hnarrow, hname.stored]
  congr 1
  by_cases hfits : name.length ≤ before.length - headerSize
  · rw [List.take_of_length_le hfits] at hroom ⊢
    exact Bytes.take_overwrite _ _ hroom
  · have hall : (name.take (before.length - headerSize)).length = (before.drop headerSize).length :=
      by
        rw [List.length_drop, List.length_take]
        omega
    rw [List.take_of_length_le]
    · rw [Bytes.overwrite, List.take_of_length_le hroom, hall, List.drop_length, List.append_nil]
    · rw [Bytes.length_overwrite, List.length_drop]
      omega

/-- Behind the name the buffer is as it was. -/
theorem getElem?_received_of_names {i : Nat} (h : headerSize ≤ before.length)
    (hname : t.Names (before.length - headerSize) name)
    (hi : headerSize + min name.length (before.length - headerSize) ≤ i) :
    (received before t n)[i]? = before[i]? := by
  have hsplit : (received before t n)[i]? =
      ((received before t n).drop headerSize)[i - headerSize]? := by
    rw [List.getElem?_drop]
    congr 1
    omega
  rw [hsplit, drop_received t n h, hname.stored, Bytes.getElem?_overwrite, List.getElem?_drop]
  · congr 1
    omega
  · rw [List.length_take]
    omega

end Half

/-! ### Settling a receive -/

/-- Settling a receive leaves its address buffer with the length that was recorded, or none. -/
theorem World.bytes_settle_receiving [Os H] {w : World H} {data : Area} {sender : StorageId}
    (hne : data.storage ≠ sender) (hlent : w.memory.lend? sender = some .lent) (result : Int64)
    (t : Transfer) :
    let room := (w.memory.bytes sender).length - Half.headerSize
    (w.settle (.receiving data ⟨sender, Half.headerSize, room⟩ room) result t).1.memory.bytes
        sender =
      Half.received (w.memory.bytes sender) t
        (if result.toInt < 0 then 0 else Pinned.recordedLength t room) := by
  intro room
  let stored := w.memory.writeArea data t.data
  have hstored : stored.bytes sender = w.memory.bytes sender :=
    Memory.bytes_modifyBytes_of_ne _ _ hne
  have hlent₁ : stored.lend? sender = some .lent := (Memory.lend?_modifyBytes _ _ _ _).trans hlent
  have hlent₂ : (stored.writeArea ⟨sender, Half.headerSize, room⟩ (t.name.getD [])).lend? sender =
      some .lent := (Memory.lend?_modifyBytes _ _ _ _).trans hlent₁
  simp only [settle, Memory.bytes_releaseAll]
  refine (Memory.bytes_modifyBytes_self _ _ hlent₂).trans ?_
  rw [Memory.writeArea, Memory.bytes_modifyBytes_self _ _ hlent₁, hstored]
  rfl

/-- The address in a buffer that nobody holds. -/
theorem Engine.decodeAddress_of_idle {m : Memory} {buffer : StorageId}
    (h : m.lend? buffer = some .idle) : decodeAddress m buffer = Half.read (m.bytes buffer) := by
  rw [decodeAddress, Memory.read?_of_idle h, Option.map_some, Option.getD_some]

/-! ### From submission to callback -/

/-- What the callback of a receive finds in its two buffers, which held these bytes, and what stays
there. -/
structure NamesSender [Os H] [CompletionPort P H] (m : Memory) (data : Area) (sender : StorageId)
    (cb : Callback) (c : Completion) (moved : Transfer) (ran : Option (Callback × Outcome))
    (s : Scene P H) (τ : List (Moment P H)) : Prop where
  /-- The callback has been called, and has done nothing yet. -/
  inside : ∃ context, s.running = some context ∧ context.callback = cb
  told : ran = some (cb, .ofResult c.result)
  /-- The buffer can be looked at. -/
  idle : s.lend? sender = some .idle
  /-- The name is read as far as there was room for it, whatever the buffer held before. -/
  received : 0 ≤ c.result.toInt → ∀ name, moved.Names (m.capacity sender - Half.headerSize) name →
    Engine.decodeAddress s.engine.world.memory sender =
      Address.ofBytes (name.take (m.capacity sender - Half.headerSize))
  nameless : 0 ≤ c.result.toInt → ∀ name, moved.Names (m.capacity sender - Half.headerSize) name →
    name.length < 2 → Engine.decodeAddress s.engine.world.memory sender = .none
  inet : 0 ≤ c.result.toInt → ∀ name, moved.Names (m.capacity sender - Half.headerSize) name →
    ∀ ip port rest, name = Address.inetFront ip port ++ rest → 8 ≤ rest.length →
      Engine.decodeAddress s.engine.world.memory sender = .inet ip port
  failed : c.result.toInt < 0 → Engine.decodeAddress s.engine.world.memory sender = .none
  /-- The header says no more than there is room for. -/
  header : Bytes.toNatLE ((s.bytes sender).take Half.headerSize) ≤
    m.capacity sender - Half.headerSize
  /-- Behind the header is what the port stored there, and what it left. -/
  body : (s.bytes sender).drop Half.headerSize =
    Bytes.overwrite ((m.bytes sender).drop Half.headerSize)
      ((moved.name.getD []).take (m.capacity sender - Half.headerSize))
  beyond : ∀ name, moved.Names (m.capacity sender - Half.headerSize) name →
    ∀ i, Half.headerSize + min name.length (m.capacity sender - Half.headerSize) ≤ i →
      (s.bytes sender)[i]? = (m.bytes sender)[i]?
  /-- The data is what the port stored, and nothing else is done to it. -/
  data : s.bytes data.storage =
    Bytes.overwrite (m.bytes data.storage) (moved.data.take data.length)
  /-- As long as nobody uses the buffer the same address is read from it. -/
  stays : ∀ τ₁ x τ₂, τ = τ₁ ++ x :: τ₂ → LeftAlone sender s (τ₁ ++ [x]) →
    Engine.decodeAddress x.2.engine.world.memory sender =
      Engine.decodeAddress s.engine.world.memory sender

variable [Os H] [CompletionPort P H]

/-- When a receive is settled its callback finds the name of the sender, and it stays. -/
theorem Context.Settles.namesSender {m : Memory} {x : Extensions} {sub : Submission}
    {cb : Callback} {seen : Engine P H} {c : Completion} {moved : Transfer}
    {ran : Option (Callback × Outcome)} {s : Scene P H} {τ : List (Moment P H)} {fd : Fd}
    {buffer sender : StorageId} {length : Option Nat} {flags : Int32}
    (h : (Engine.contextOf sub cb).Settles m.bytes seen c moved ran s) (hstays : StaysIdle s τ)
    (hbecomes : (Order.receiveFrom fd buffer sender length flags).Becomes m x sub)
    (hroom : Half.minSize ≤ m.capacity sender) (hnarrow : m.capacity sender < 2 ^ 32) :
    NamesSender m (m.front buffer length) sender cb c moved ran s τ := by
  have hpinned : (Engine.contextOf sub cb).pinned = .receiving (m.front buffer length)
      (m.behindHeader sender) (m.behindHeader sender).length := by
    cases hbecomes with
    | receiveFrom => rfl
  have hleases : (Engine.contextOf sub cb).pinned.leases = [buffer, sender] := by
    rw [hpinned]
    rfl
  have hfilled := hbecomes.bytes_settle rfl h.distinct (fun id hid => (h.held id hid).2) c.result
    moved
  obtain ⟨hdata, _⟩ := h.held buffer (by simp [hleases])
  obtain ⟨hname, hlent⟩ := h.held sender (by simp [hleases])
  have hidle : s.lend? sender = some .idle := h.idle (by simp [hleases])
  have hne : (m.front buffer length).storage ≠ sender := by
    have hnd := h.distinct
    rw [hleases] at hnd
    exact List.ne_of_not_mem_cons (List.nodup_cons.mp hnd).1
  have hmin : Half.headerSize ≤ (m.bytes sender).length := Nat.le_trans (by decide) hroom
  have hsettle : seen.world.settle (Engine.contextOf sub cb).pinned c.result moved =
      seen.world.settle (.receiving (m.front buffer length) ⟨sender, Half.headerSize,
        (m.bytes sender).length - Half.headerSize⟩ ((m.bytes sender).length - Half.headerSize))
        c.result moved := by
    have hroom' : min (m.capacity sender - Half.headerSize) 0xffffffff =
        (m.bytes sender).length - Half.headerSize :=
      Nat.min_eq_left (Nat.le_trans (Nat.sub_le _ _) (Nat.le_of_lt_succ hnarrow))
    rw [hpinned, Memory.behindHeader, hroom']
  have hbytes : s.bytes sender = Half.received (m.bytes sender) moved
      (if c.result.toInt < 0 then 0
        else Pinned.recordedLength moved (m.capacity sender - Half.headerSize)) := by
    have hreceiving := World.bytes_settle_receiving hne hlent c.result moved
    rw [hname] at hreceiving
    rw [Scene.bytes, h.memory, hsettle]
    exact hreceiving
  have hdecode : Engine.decodeAddress s.engine.world.memory sender = Half.read (s.bytes sender) :=
    Engine.decodeAddress_of_idle hidle
  have hreceived : 0 ≤ c.result.toInt →
      ∀ name, moved.Names (m.capacity sender - Half.headerSize) name →
        Engine.decodeAddress s.engine.world.memory sender =
          Address.ofBytes (name.take (m.capacity sender - Half.headerSize)) := by
    intro hr name hnames
    rw [hdecode, hbytes, if_neg (Int.not_lt.mpr hr), hnames.recorded]
    exact Half.read_received_of_names hmin hnarrow hnames
  refine ⟨⟨_, h.running, rfl⟩, ?_, hidle, hreceived, ?_, ?_, ?_, ?_, ?_, ?_, ?_, ?_⟩
  · rw [h.ran, hpinned]
    rfl
  · intro hr name hnames hshort
    rw [hreceived hr name hnames]
    apply Address.ofBytes_of_length_lt
    rw [List.length_take]
    omega
  · intro hr name hnames ip port rest hip hrest
    rw [hreceived hr name hnames]
    apply Address.ofBytes_take_of_inet (Address.ofBytes_eq_inet_iff.mpr ⟨rest, hrest, hip⟩)
    exact Nat.le_sub_of_add_le hroom
  · intro hr
    rw [hdecode, hbytes, if_pos hr, Half.read_received moved 0 hmin hnarrow]
    rfl
  · rw [hbytes, Half.toNatLE_take_received moved _ hmin hnarrow]
    exact Nat.min_le_right _ _
  · rw [hbytes]
    exact Half.drop_received moved _ hmin
  · intro name hnames i hi
    rw [hbytes]
    exact Half.getElem?_received_of_names hmin hnames hi
  · rw [Scene.bytes, h.memory]
    refine hfilled.trans ((if_pos rfl).trans ?_)
    exact congrArg (Bytes.overwrite · _) hdata
  · intro τ₁ x τ₂ hτ halone
    obtain ⟨hlater, hsame⟩ := hstays sender hidle τ₁ x τ₂ hτ halone
    rw [hdecode, Engine.decodeAddress_of_idle hlater]
    exact congrArg Half.read hsame

/-- Whenever the completion of the receive that is in flight under a token is retrieved, its callback
finds the name of the sender. -/
def NamesSenders (m : Memory) (data : Area) (sender : StorageId) (cb : Callback) (t : Token)
    (τ : List (Moment P H)) : Prop :=
  ∀ τ₁ seen c moved ran s τ₂, τ = τ₁ ++ (.completed seen c moved ran, s) :: τ₂ →
    (∀ y ∈ τ₁, ¬ y.1.Ends t) → c.token = t → NamesSender m data sender cb c moved ran s τ₂

/-- Whatever a program does, and whatever comes of a receive, its callback finds in the address
buffer the name of the sender of this message or none, whatever the buffer held before, and it
stays there until the program uses the buffer again. A header has 32 bits; of a larger buffer it
could not tell the room. A token has `2 ^ 32` indices; with more slots than that, which takes as
many submissions, two operations would share one. -/
theorem senders_are_named {config : Config} {port : P} {host : H} {e : Engine P H}
    (h : Engine.build config port host = .ready e) (steps : List (Step H)) (fd : Fd)
    (handle name : String) (length : Option Nat) (flags : Int32) (buffer sender : StorageId)
    (cb : Callback) (t : Token) (later : List (Step H))
    (hresolve : ((Client.own e).after steps).resolve (.receiveFrom fd handle name length flags) =
      some (.receiveFrom fd buffer sender length flags))
    (hok : (((Client.own e).after steps).step
      (.place (.receiveFrom fd handle name length flags) cb)).2 = .submitted (.ok t))
    (hroom : (((Client.own e).after steps).after
      (.place (.receiveFrom fd handle name length flags) cb :: later)).engine.slab.slots.length ≤
        2 ^ 32)
    (hnarrow : ((Client.own e).after steps).engine.world.memory.capacity sender < 2 ^ 32) :
    Half.minSize ≤ ((Client.own e).after steps).engine.world.memory.capacity sender ∧
      NamesSenders ((Client.own e).after steps).engine.world.memory
        (((Client.own e).after steps).engine.world.memory.front buffer length) sender cb t
        (((Client.own e).after steps).history
          (.place (.receiveFrom fd handle name length flags) cb :: later)) := by
  obtain ⟨x, m, sub, hprep, hsettles⟩ := Client.settles_of_place h steps hresolve hok hroom
  obtain ⟨hbecomes, _⟩ := Order.becomes_of_prepare hprep
  have hsize : Half.minSize ≤ ((Client.own e).after steps).engine.world.memory.capacity sender := by
    cases hbecomes with
    | receiveFrom _ _ _ _ _ hsize => exact hsize
  refine ⟨hsize, ?_⟩
  intro τ₁ seen c moved ran s τ₂ hτ hnot ht
  obtain ⟨hsettle, hstays⟩ := hsettles τ₁ seen c moved ran s τ₂ hτ hnot ht
  exact hsettle.namesSender hstays hbecomes hsize hnarrow

/-- A port that hands back a message from a sender whose name is longer than what there is room for,
and then a failure. -/
def Scripted.naming : Scripted :=
  { waits := [.completion (.user 0) 2 0
      { data := [1, 2], name := some (Address.inetBytes ⟨10, 0, 0, 7⟩ 5000), nameLength := some 28 },
      .completion (.user 1) (-11) 0 {}] }

theorem senders_are_named_of_long : ∃ e : Engine Scripted Host,
    Engine.build {} Scripted.naming Host.start = .ready e ∧
    let c := (Client.own e).after [.buffer "data" [0, 0, 0], .buffer "name" (List.replicate 20 7)]
    let receive : Step Host := .place (.receiveFrom 0 "data" "name" none 0) ⟨"received", []⟩
    let run := [receive, .pump none 9, receive, .pump none 9]
    c.resolve (.receiveFrom 0 "data" "name" none 0) = some (.receiveFrom 0 1 2 none 0) ∧
    (c.step receive).2 = .submitted (.ok (Token.ofSlot 1 0)) ∧
    (c.after run).engine.slab.slots.length ≤ 2 ^ 32 ∧
    c.engine.world.memory.capacity 2 < 2 ^ 32 ∧
    NamesSenders c.engine.world.memory (c.engine.world.memory.front 1 none) 2 ⟨"received", []⟩
      (Token.ofSlot 1 0) (c.history run) ∧
    (c.history run).map (fun m => Engine.decodeAddress m.2.engine.world.memory 2) =
      [.none, .none, .inet ⟨10, 0, 0, 7⟩ 5000, .inet ⟨10, 0, 0, 7⟩ 5000, .none, .none, .none,
        .none] := by
  refine ⟨_, rfl, rfl, rfl, by decide +kernel, by decide +kernel, ?_, by decide +kernel⟩
  exact (@senders_are_named Scripted Host _ _ {} Scripted.naming Host.start _ rfl
    [.buffer "data" [0, 0, 0], .buffer "name" (List.replicate 20 7)] 0 "data" "name" none 0 1 2
    ⟨"received", []⟩ (Token.ofSlot 1 0)
    [.pump none 9, .place (.receiveFrom 0 "data" "name" none 0) ⟨"received", []⟩, .pump none 9]
    rfl rfl (by decide +kernel) (by decide +kernel)).2

end Proactor
