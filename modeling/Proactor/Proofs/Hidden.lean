import Proactor.Proofs.Turnover

/-!
# A hidden storage

Worlds that differ in the bytes of one storage, which an operation holds and which no handle names,
and in hosts that answer alike. User code cannot tell such worlds apart: orders are prepared alike,
callbacks act alike, and the results of operations on other storages are put right alike.
-/

namespace Proactor

/-! ### Memory -/

namespace Memory

/-- The memories differ in nothing but the bytes of a storage that an operation holds and that no
handle names. -/
structure Alike (hidden : StorageId) (m m' : Memory) : Prop where
  handles : m'.handles = m.handles
  lend? : ∀ id, m'.lend? id = m.lend? id
  bytes : ∀ id, id ≠ hidden → m'.bytes id = m.bytes id
  lent : m.lend? hidden = some .lent
  unnamed : ∀ x ∈ m.handles, x.2 ≠ hidden

/-- Bytes that are there are replaced by what the function makes of them. -/
theorem bytes_modifyBytes_self (m : Memory) {id : StorageId} {l : Lend} (f : Bytes → Bytes)
    (h : m.lend? id = some l) : (m.modifyBytes id f).bytes id = f (m.bytes id) := by
  obtain ⟨s, hs, _⟩ := Option.map_eq_some_iff.mp h
  simp [modifyBytes, Memory.bytes, hs]

/-- There are no bytes where there is no storage. -/
theorem bytes_modifyBytes_of_none (m : Memory) {id : StorageId} (f : Bytes → Bytes)
    (h : m.lend? id = none) : (m.modifyBytes id f).bytes id = m.bytes id := by
  have hs : m.storages[id]? = none := Option.map_eq_none_iff.mp h
  simp [modifyBytes, Memory.bytes, hs]

theorem lend?_eq_none_iff (m : Memory) (id : StorageId) :
    m.lend? id = none ↔ m.storages.length ≤ id := by
  simp [Memory.lend?]

/-- A new storage has the bytes it was made with. -/
theorem bytes_alloc (m : Memory) (content : Bytes) (other : StorageId) :
    (m.alloc content).1.bytes other =
      if other = m.storages.length then content else m.bytes other := by
  by_cases h : other = m.storages.length
  · simp [alloc, Memory.bytes, h]
  · simp only [alloc, Memory.bytes, if_neg h]
    rcases Nat.lt_or_gt_of_ne h with hlt | hgt
    · rw [List.getElem?_append_left hlt]
    · rw [List.getElem?_eq_none (by simp; omega), List.getElem?_eq_none (by omega)]

namespace Alike

variable {hidden : StorageId} {m m' m'' : Memory}

theorem symm (h : Alike hidden m m') : Alike hidden m' m where
  handles := h.handles.symm
  lend? id := (h.lend? id).symm
  bytes id hid := (h.bytes id hid).symm
  lent := (h.lend? hidden).trans h.lent
  unnamed := fun x hx => h.unnamed x (h.handles ▸ hx)

theorem trans (h : Alike hidden m m') (h' : Alike hidden m' m'') : Alike hidden m m'' where
  handles := h'.handles.trans h.handles
  lend? id := (h'.lend? id).trans (h.lend? id)
  bytes id hid := (h'.bytes id hid).trans (h.bytes id hid)
  lent := h.lent
  unnamed := h.unnamed

/-! #### What is read -/

theorem find? (h : Alike hidden m m') (handle : String) : m'.find? handle = m.find? handle := by
  rw [Memory.find?, Memory.find?, h.handles]

/-- No handle names the hidden storage. -/
theorem ne_of_find? (h : Alike hidden m m') {handle : String} {id : StorageId}
    (hfind : m.find? handle = some id) : id ≠ hidden := by
  obtain ⟨l₁, l₂, hl, _⟩ := List.lookup_eq_some_iff.mp hfind
  refine h.unnamed (handle, id) ?_
  rw [hl]
  exact List.mem_append_right _ List.mem_cons_self

theorem isIdle (h : Alike hidden m m') (id : StorageId) : m'.isIdle id = m.isIdle id := by
  rw [Memory.isIdle, Memory.isIdle, h.lend?]

theorem isLent (h : Alike hidden m m') (id : StorageId) : m'.isLent id = m.isLent id := by
  rw [Memory.isLent, Memory.isLent, h.lend?]

theorem capacity (h : Alike hidden m m') {id : StorageId} (hid : id ≠ hidden) :
    m'.capacity id = m.capacity id := by
  rw [Memory.capacity, Memory.capacity, h.bytes id hid]

theorem read? (h : Alike hidden m m') {id : StorageId} (hid : id ≠ hidden) :
    m'.read? id = m.read? id := by
  rw [Memory.read?, Memory.read?, h.isIdle, h.bytes id hid]

/-- There are as many storages. -/
theorem length_eq (h : Alike hidden m m') : m'.storages.length = m.storages.length := by
  have hthere := fun id => (lend?_eq_none_iff m' id).symm.trans
    ((h.lend? id) ▸ lend?_eq_none_iff m id)
  exact Nat.le_antisymm ((hthere _).mpr (Nat.le_refl _)) ((hthere _).mp (Nat.le_refl _))

/-! #### What is changed -/

theorem modifyBytes (h : Alike hidden m m') (id : StorageId) (f : Bytes → Bytes) :
    Alike hidden (m.modifyBytes id f) (m'.modifyBytes id f) where
  handles := h.handles
  lend? other := by rw [lend?_modifyBytes, lend?_modifyBytes, h.lend?]
  bytes other hother := by
    by_cases he : id = other
    · subst he
      cases hl : m.lend? id with
      | none =>
        rw [bytes_modifyBytes_of_none m f hl,
          bytes_modifyBytes_of_none m' f ((h.lend? id).trans hl), h.bytes id hother]
      | some l =>
        rw [bytes_modifyBytes_self m f hl, bytes_modifyBytes_self m' f ((h.lend? id).trans hl),
          h.bytes id hother]
    · rw [bytes_modifyBytes_of_ne m f he, bytes_modifyBytes_of_ne m' f he, h.bytes other hother]
  lent := by rw [lend?_modifyBytes, h.lent]
  unnamed := h.unnamed

theorem setLend (h : Alike hidden m m') {id : StorageId} (hid : id ≠ hidden) (l : Lend) :
    Alike hidden (m.setLend id l) (m'.setLend id l) where
  handles := h.handles
  lend? other := by rw [lend?_setLend, lend?_setLend, h.lend?]
  bytes other hother := by rw [bytes_setLend, bytes_setLend, h.bytes other hother]
  lent := by rw [lend?_setLend, if_neg hid, h.lent]
  unnamed := h.unnamed

theorem releaseAll (h : Alike hidden m m') {ids : List StorageId} (hids : hidden ∉ ids) :
    Alike hidden (m.releaseAll ids) (m'.releaseAll ids) := by
  induction ids generalizing m m' with
  | nil => exact h
  | cons id ids ih =>
    rw [List.mem_cons, not_or] at hids
    obtain ⟨hid, hids⟩ := hids
    exact ih (h.setLend (Ne.symm hid) .idle) hids

theorem writeArea (h : Alike hidden m m') (a : Area) (src : Bytes) :
    Alike hidden (m.writeArea a src) (m'.writeArea a src) :=
  h.modifyBytes a.storage _

/-- A new storage is not the hidden one. -/
theorem length_ne (h : Alike hidden m m') : m.storages.length ≠ hidden := by
  intro he
  have hnone := (lend?_eq_none_iff m hidden).mpr (Nat.le_of_eq he)
  rw [h.lent] at hnone
  cases hnone

theorem alloc (h : Alike hidden m m') (content : Bytes) :
    Alike hidden (m.alloc content).1 (m'.alloc content).1 where
  handles := h.handles
  lend? other := by rw [lend?_alloc, lend?_alloc, h.length_eq, h.lend?]
  bytes other hother := by rw [bytes_alloc, bytes_alloc, h.length_eq, h.bytes other hother]
  lent := by rw [lend?_alloc, if_neg (Ne.symm h.length_ne), h.lent]
  unnamed := h.unnamed

theorem bind (h : Alike hidden m m') (handle : String) {id : StorageId} (hid : id ≠ hidden) :
    Alike hidden (m.bind handle id) (m'.bind handle id) where
  handles := congrArg ((handle, id) :: ·) h.handles
  lend? := h.lend?
  bytes := h.bytes
  lent := h.lent
  unnamed := List.forall_mem_cons.mpr ⟨hid, h.unnamed⟩

/-- A storage is borrowed in both or in none. -/
theorem borrow? (h : Alike hidden m m') {id : StorageId} (hid : id ≠ hidden) :
    (m.borrow? id = none ∧ m'.borrow? id = none) ∨
      ∃ n n', m.borrow? id = some n ∧ m'.borrow? id = some n' ∧ Alike hidden n n' := by
  unfold Memory.borrow?
  rw [h.isIdle]
  split
  · exact .inr ⟨_, _, rfl, rfl, h.setLend hid .borrowed⟩
  · exact .inl ⟨rfl, rfl⟩

/-- The hidden storage can be written to, given back and lent again, and that does not show. -/
theorem relend (h : Alike hidden m m) (a : Area) (src : Bytes) (ha : a.storage = hidden) :
    let given := (m.writeArea a src).release hidden
    given.lease? hidden = some (given.setLend hidden .lent) ∧
      Alike hidden m (given.setLend hidden .lent) := by
  intro given
  have hlend : ∀ id, given.lend? id = if id = hidden then some .idle else m.lend? id := by
    intro id
    rw [lend?_release, Memory.writeArea, lend?_modifyBytes]
    by_cases hid : id = hidden
    · simp [hid, h.lent]
    · simp [hid]
  refine ⟨?_, rfl, fun id => ?_, fun id hid => ?_, h.lent, h.unnamed⟩
  · rw [lease?_eq_some_iff, hlend, if_pos rfl]
    exact ⟨rfl, rfl⟩
  · rw [lend?_setLend, hlend]
    by_cases hid : id = hidden
    · simp [hid, h.lent]
    · simp [hid, Ne.symm hid]
  · rw [bytes_setLend, bytes_release, Memory.writeArea,
      bytes_modifyBytes_of_ne m _ (ha ▸ Ne.symm hid)]

end Alike

end Memory

/-! ### Orders -/

/-- Both preparations fail for the same fault, or the same submission comes of them. -/
inductive PreparedAlike (hidden : StorageId) :
    Except Fault (Memory × Submission) → Except Fault (Memory × Submission) → Prop where
  | error (f : Fault) : PreparedAlike hidden (.error f) (.error f)
  | ok {m m' : Memory} (h : m.Alike hidden m') (s : Submission) :
    PreparedAlike hidden (.ok (m, s)) (.ok (m', s))

namespace Submission

variable {hidden : StorageId} {m m' : Memory}

theorem transferLength_alike (h : m.Alike hidden m') {buffer : StorageId} (hne : buffer ≠ hidden)
    (length : Option Nat) : transferLength m' buffer length = transferLength m buffer length := by
  unfold transferLength
  rw [h.capacity hne]

/-- A buffer is lent in both or in none. -/
theorem lend_alike (h : m.Alike hidden m') {buffer : StorageId} (hne : buffer ≠ hidden)
    {k k' : Memory → Except Fault (Memory × Submission)}
    (hk : ∀ n n', n.Alike hidden n' → PreparedAlike hidden (k n) (k' n')) :
    PreparedAlike hidden (lend m buffer >>= k) (lend m' buffer >>= k') := by
  unfold lend Memory.lease?
  rw [h.isIdle]
  by_cases hidle : m.isIdle buffer = true
  · simp only [if_pos hidle]
    exact hk _ _ (h.setLend hne .lent)
  · simp only [if_neg hidle]
    exact .error _

end Submission

open Submission in
/-- Orders on other storages are prepared alike. -/
theorem Order.prepare_alike {hidden : StorageId} {m m' : Memory} (h : m.Alike hidden m')
    (x : Extensions) (o : Order StorageId) (hb : hidden ∉ o.buffers) :
    PreparedAlike hidden (o.prepare m x) (o.prepare m' x) := by
  cases o with
  | write fd buffer length =>
    have hne : buffer ≠ hidden := fun he => hb (he ▸ List.mem_singleton_self _)
    simp only [prepare, Submission.write, transferLength_alike h hne]
    cases transferLength m buffer length with
    | error f => exact .error f
    | ok n => exact lend_alike h hne fun _ _ hn => .ok hn _
  | read fd buffer length =>
    have hne : buffer ≠ hidden := fun he => hb (he ▸ List.mem_singleton_self _)
    simp only [prepare, Submission.read, transferLength_alike h hne]
    cases transferLength m buffer length with
    | error f => exact .error f
    | ok n => exact lend_alike h hne fun _ _ hn => .ok hn _
  | receiveFrom fd buffer sender length flags =>
    have hne : buffer ≠ hidden := fun he => hb (by simp [buffers, he])
    have hsender : sender ≠ hidden := fun he => hb (by simp [buffers, he])
    simp only [prepare, Submission.receiveFrom, transferLength_alike h hne, h.capacity hsender]
    cases transferLength m buffer length with
    | error f => exact .error f
    | ok n =>
      by_cases hroom : m.capacity sender < Half.minSize
      · simp only [bind, Except.bind, if_pos hroom]
        exact .error _
      · simp only [bind, Except.bind, if_neg hroom]
        refine lend_alike h hne fun _ _ hn => ?_
        exact lend_alike hn hsender fun _ _ hn => .ok hn _
  | sendTo fd buffer destination length flags =>
    have hne : buffer ≠ hidden := fun he => hb (he ▸ List.mem_singleton_self _)
    simp only [prepare, Submission.sendTo, transferLength_alike h hne]
    cases transferLength m buffer length with
    | error f => exact .error f
    | ok n =>
      cases destination.encode with
      | error f => exact .error f
      | ok address => exact lend_alike h hne fun _ _ hn => .ok hn _
  | accept fd onto output =>
    have hne : output ≠ hidden := fun he => hb (he ▸ List.mem_singleton_self _)
    simp only [prepare, Submission.accept, h.capacity hne]
    by_cases hroom : m.capacity output < Half.minAcceptSize
    · simp only [if_pos hroom]
      exact .error _
    · by_cases honto : onto.toInt < 0
      · simp only [if_neg hroom, if_pos honto]
        exact .error _
      · simp only [if_neg hroom, if_neg honto]
        exact lend_alike h hne fun _ _ hn => .ok hn _
  | connect fd destination =>
    simp only [prepare, Submission.connect]
    cases destination.encode with
    | error f => exact .error f
    | ok address => exact .ok h _
  | event => exact .ok h _

/-! ### Worlds -/

variable {H : Type} [Os H]

/-- Hosts that are related so give the same answers, but for the time. -/
structure Os.Agree (S : H → H → Prop) : Prop where
  eventAdd : ∀ {h h' : H}, S h h' → ∀ fd,
    (Os.eventAdd h' fd).2 = (Os.eventAdd h fd).2 ∧ S (Os.eventAdd h fd).1 (Os.eventAdd h' fd).1
  duplicate : ∀ {h h' : H}, S h h' → ∀ old new,
    (Os.duplicate h' old new).2 = (Os.duplicate h old new).2 ∧
      S (Os.duplicate h old new).1 (Os.duplicate h' old new).1
  close : ∀ {h h' : H}, S h h' → ∀ fd, S (Os.close h fd) (Os.close h' fd)
  socketName : ∀ {h h' : H}, S h h' → ∀ fd, Os.socketName h' fd = Os.socketName h fd

namespace World

/-- The worlds differ in nothing that user code can tell, and have the same event counter. -/
structure Alike (S : H → H → Prop) (hidden : StorageId) (wake : Fd) (w w' : World H) :
    Prop where
  host : S w.host w'.host
  memory : w.memory.Alike hidden w'.memory
  injector : w'.injector = w.injector
  wake : w.injector.wake = wake
  calls : w'.calls = w.calls

variable {S : H → H → Prop} {hidden : StorageId} {wake : Fd} {w w' : World H}

omit [Os H] in
theorem Alike.withMemory (h : Alike S hidden wake w w') {m m' : Memory} (hm : m.Alike hidden m') :
    Alike S hidden wake { w with memory := m } { w' with memory := m' } :=
  ⟨h.host, hm, h.injector, h.wake, h.calls⟩

omit [Os H] in
theorem Alike.record (h : Alike S hidden wake w w') (c : Call) :
    Alike S hidden wake (w.record c) (w'.record c) :=
  ⟨h.host, h.memory, h.injector, h.wake, congrArg (· ++ [c]) h.calls⟩

omit [Os H] in
/-- The first of the posted callbacks is the same. -/
theorem Alike.pop (h : Alike S hidden wake w w') :
    (w.pop = none ∧ w'.pop = none) ∨
      ∃ cb w₁ w₁', w.pop = some (cb, w₁) ∧ w'.pop = some (cb, w₁') ∧
        Alike S hidden wake w₁ w₁' := by
  unfold World.pop
  rw [h.injector]
  cases w.injector.queue with
  | nil => exact .inl ⟨rfl, rfl⟩
  | cons cb queue => exact .inr ⟨cb, _, _, rfl, rfl, h.host, h.memory, rfl, h.wake, h.calls⟩

variable (hS : Os.Agree S)

include hS in
theorem alike_post (h : Alike S hidden wake w w') (cb : Callback) :
    (w'.post cb).2 = (w.post cb).2 ∧ Alike S hidden wake (w.post cb).1 (w'.post cb).1 := by
  unfold post
  rw [h.injector]
  split
  · exact ⟨rfl, h⟩
  · obtain ⟨hanswer, hnext⟩ := hS.eventAdd h.host w.injector.wake
    unfold World.wake enqueue
    simp only [h.injector]
    cases hadd : Os.eventAdd w.host w.injector.wake with
    | mk host r =>
      cases hadd' : Os.eventAdd w'.host w.injector.wake with
      | mk host' r' =>
        rw [hadd, hadd'] at hanswer hnext
        obtain rfl : r' = r := hanswer
        cases r' with
        | ok u => exact ⟨rfl, hnext, h.memory, rfl, h.wake, h.calls⟩
        | error f => exact ⟨rfl, hnext, h.memory, rfl, h.wake, h.calls⟩

omit [Os H] in
theorem alike_fill (h : Alike S hidden wake w w') (handle : String) (content : Bytes) :
    Alike S hidden wake (w.fill handle content) (w'.fill handle content) := by
  unfold fill
  rw [h.memory.find?]
  cases w.memory.find? handle with
  | none => exact h
  | some id =>
    simp only [Option.bind_some, Memory.fill?, h.memory.isIdle]
    by_cases hidle : w.memory.isIdle id = true
    · simp only [if_pos hidle]
      exact h.withMemory (h.memory.modifyBytes id _)
    · simp only [if_neg hidle]
      exact h

omit [Os H] in
/-- A borrow begins in both or in none, and not of the hidden storage. -/
theorem alike_borrow? (h : Alike S hidden wake w w') (handle : String) (content : Bytes) :
    (w.borrow? handle content = none ∧ w'.borrow? handle content = none) ∨
      ∃ id w₁ w₁', w.borrow? handle content = some (id, w₁) ∧
        w'.borrow? handle content = some (id, w₁') ∧ id ≠ hidden ∧ Alike S hidden wake w₁ w₁' := by
  simp only [World.borrow?, Option.bind_eq_bind, h.memory.find?]
  cases hfind : w.memory.find? handle with
  | none => exact .inl ⟨rfl, rfl⟩
  | some id =>
    have hid := h.memory.ne_of_find? hfind
    rcases h.memory.borrow? hid with ⟨hn, hn'⟩ | ⟨n, n', hn, hn', hm⟩
    · simp only [Option.bind_some, hn, hn']
      exact .inl ⟨rfl, rfl⟩
    · simp only [Option.bind_some, hn, hn']
      exact .inr ⟨id, _, _, rfl, rfl, hid, h.withMemory (hm.modifyBytes id _)⟩

omit [Os H] in
theorem Alike.release (h : Alike S hidden wake w w') {id : StorageId} (hid : id ≠ hidden) :
    Alike S hidden wake (w.release id) (w'.release id) :=
  h.withMemory (h.memory.setLend hid .idle)

mutual

/-- An action of a callback acts alike. -/
theorem alike_act (hS : Os.Agree S) {w w' : World H} (h : Alike S hidden wake w w') (a : Action) :
    Alike S hidden wake (w.act a) (w'.act a) := by
  cases a with
  | post tag actions =>
    obtain ⟨hanswer, hpost⟩ := alike_post hS h ⟨tag, actions⟩
    simp only [act, hanswer]
    exact hpost.record _
  | peek handle =>
    simp only [act, h.memory.find?]
    cases hfind : w.memory.find? handle with
    | none =>
      simp only [World.pending, h.injector]
      exact h.record _
    | some id =>
      simp only [h.memory.isLent, h.memory.read? (h.memory.ne_of_find? hfind)]
      exact h.record _
  | pending =>
    simp only [act, World.pending, h.injector]
    exact h.record _
  | fill handle content => exact alike_fill h handle content
  | borrow handle content actions =>
    rcases alike_borrow? h handle content with ⟨hw, hw'⟩ | ⟨id, w₁, w₁', hw, hw', hid, h₁⟩
    · simp only [act, hw, hw']
      exact h
    · simp only [act, hw, hw']
      exact (alike_acts hS h₁ actions).release hid

/-- Actions of a callback act alike. -/
theorem alike_acts (hS : Os.Agree S) {w w' : World H} (h : Alike S hidden wake w w')
    (as : List Action) : Alike S hidden wake (w.acts as) (w'.acts as) := by
  cases as with
  | nil => exact h
  | cons a as => exact alike_acts hS (alike_act hS h a) as

end

include hS in
theorem alike_run (h : Alike S hidden wake w w') (cb : Callback) (o : Outcome) :
    Alike S hidden wake (w.run cb o) (w'.run cb o) :=
  alike_acts hS (h.record (.ran cb.tag o)) cb.actions

include hS in
theorem alike_moveAccepted (h : Alike S hidden wake w w') (connection : Fd) (peer : SocketAddress)
    (output : StorageId) (onto : Fd) :
    (w'.moveAccepted connection peer output onto).2 =
        (w.moveAccepted connection peer output onto).2 ∧
      Alike S hidden wake (w.moveAccepted connection peer output onto).1
        (w'.moveAccepted connection peer output onto).1 := by
  obtain ⟨hanswer, hnext⟩ := hS.duplicate h.host connection onto
  have hwritten := fun near far =>
    h.memory.modifyBytes output fun bytes => Half.writeAccept bytes near far
  unfold moveAccepted
  cases hdup : Os.duplicate w.host connection onto with
  | mk host r =>
    cases hdup' : Os.duplicate w'.host connection onto with
    | mk host' r' =>
      rw [hdup, hdup'] at hanswer hnext
      obtain rfl : r' = r := hanswer
      have hclosed := hS.close hnext connection
      cases r' with
      | ok u =>
        simp only [writeHalves, hS.socketName hclosed]
        exact ⟨trivial, hclosed, hwritten _ _, h.injector, h.wake, h.calls⟩
      | error f =>
        simp only [writeHalves]
        exact ⟨trivial, hclosed, hwritten _ _, h.injector, h.wake, h.calls⟩

include hS in
theorem alike_finish (h : Alike S hidden wake w w') (p : Pinned) (result : Int64) :
    (w'.finish p result).2 = (w.finish p result).2 ∧
      Alike S hidden wake (w.finish p result).1 (w'.finish p result).1 := by
  unfold finish
  split
  · exact ⟨rfl, h.withMemory (h.memory.modifyBytes _ _)⟩
  · split
    · exact ⟨rfl, h.withMemory (h.memory.modifyBytes _ _)⟩
    · exact alike_moveAccepted hS h _ _ _ _
  · exact ⟨rfl, h⟩

include hS in
/-- What an operation on other storages comes to is put right alike. -/
theorem alike_settle (h : Alike S hidden wake w w') (p : Pinned) (result : Int64) (t : Transfer)
    (hp : hidden ∉ p.leases) :
    (w'.settle p result t).2 = (w.settle p result t).2 ∧
      Alike S hidden wake (w.settle p result t).1 (w'.settle p result t).1 := by
  have hland : (p.land w'.memory t).2 = (p.land w.memory t).2 ∧
      (p.land w.memory t).1.Alike hidden (p.land w'.memory t).1 := by
    cases p with
    | reading data => exact ⟨rfl, h.memory.writeArea data t.data⟩
    | receiving data name n =>
      exact ⟨rfl, (h.memory.writeArea data t.data).writeArea name (t.name.getD [])⟩
    | _ => exact ⟨rfl, h.memory⟩
  obtain ⟨hpinned, hmemory⟩ := hland
  have hfinish := alike_finish hS (h.withMemory hmemory) (p.land w.memory t).2 result
  have hleases : hidden ∉ (p.land w.memory t).2.leases := by rwa [leases_land]
  simp only [settle, hpinned]
  exact ⟨hfinish.1, hfinish.2.withMemory (hfinish.2.memory.releaseAll hleases)⟩

end World

end Proactor
