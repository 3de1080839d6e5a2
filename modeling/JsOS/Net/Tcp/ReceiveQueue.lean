import JsOS.Net.Tcp.Frame

/-! # The reordering queue

`_processReceiveQueue` takes items out of the middle of an array by swapping them
behind the items that stay, and pops them afterwards from the end. Seen as a pair
of lists, the items that stay and the items taken, the order of the former is
irrelevant and the latter are emitted in the order they were taken. Whatever
holds before the loops and survives taking any one item that `takeItem` would take
holds after them, and no item that could be taken is left
(`outerLoop_rule`, `processReceiveQueue_rule`).
-/

namespace JsOS.Net.Tcp

open Circular

namespace TCPSocket

/-- The window test is the arc of `_receiveWindowSize` positions from the edge. -/
theorem receiveWindowIsWithin_iff {s : TCPSocket} (small : s.receiveWindowSize < 2 ^ 32)
    {seq edge : Seq} :
    s.receiveWindowIsWithin seq edge ↔ ahead edge seq < s.receiveWindowSize := by
  by_cases empty : s.receiveWindowSize = 0
  · simp [receiveWindowIsWithin, empty]
  · rw [← mem_halfOpen_iff (Nat.pos_of_ne_zero empty) small, ← seqInc_natCast]
    simp only [receiveWindowIsWithin, empty, ↓reduceIte]
    split <;> simp only [Bool.and_eq_true, Bool.or_eq_true, decide_eq_true_eq]

/-! ## Taking items -/

/-- Overwriting an item that stays and swapping it behind the others moves it to
the items taken. -/
theorem swapped_eq (front back popped : List ReceiveItem) (old item : ReceiveItem) :
    ∃ kept, (old :: kept).Perm (front ++ old :: back) ∧
      (if front.length < (front ++ old :: back).length - 1 then
          swapItems ((front ++ old :: back ++ popped).set front.length item) front.length
            ((front ++ old :: back).length - 1)
        else (front ++ old :: back ++ popped).set front.length item) = kept ++ item :: popped := by
  have overwritten : (front ++ old :: back ++ popped).set front.length item =
      front ++ item :: (back ++ popped) := by
    rw [List.append_assoc, List.set_append_right _ _ (Nat.le_refl _), Nat.sub_self]
    rfl
  rw [overwritten]
  rcases List.eq_nil_or_concat back with rfl | ⟨middle, last, rfl⟩
  · refine ⟨front, (List.perm_append_singleton old front).symm, ?_⟩
    rw [if_neg (by simp)]
    rfl
  · refine ⟨front ++ last :: middle, ?_, ?_⟩
    · refine (List.Perm.cons old (List.Perm.append_left front ?_)).trans List.perm_middle.symm
      rw [List.concat_eq_append]
      exact (List.perm_append_singleton last middle).symm
    · have position : (front ++ old :: middle.concat last).length - 1 =
          (front ++ item :: middle).length := by
        simp
      have shape : front ++ item :: (middle.concat last ++ popped) =
          (front ++ item :: middle) ++ last :: popped := by
        simp
      rw [position, shape, if_pos (by simp), swapItems,
        List.getElem?_append_left (by simp), List.getElem?_append_right (Nat.le_refl _),
        List.getElem?_append_right (Nat.le_refl _)]
      simp only [Nat.sub_self, List.getElem?_cons_zero]
      rw [List.set_append_left _ _ (by simp), List.set_append_right _ _ (by simp)]
      simp

/-- The inner loop takes one item that `takeItem` takes, if there is one. -/
theorem innerLoop_spec (s : TCPSocket) (lastAck : Seq) (popped front rest : List ReceiveItem) :
    (s.innerLoop (front ++ rest ++ popped).length popped.length lastAck (front ++ rest ++ popped)
          rest.length front.length = none ∧ ∀ item ∈ rest, s.takeItem lastAck item = none) ∨
      ∃ item item' ack kept, s.takeItem lastAck item = some (item', ack) ∧
        (item :: kept).Perm (front ++ rest) ∧
        s.innerLoop (front ++ rest ++ popped).length popped.length lastAck
          (front ++ rest ++ popped) rest.length front.length =
            some (kept ++ item' :: popped, ack) := by
  induction rest generalizing front with
  | nil => exact .inl ⟨rfl, by simp⟩
  | cons item rest ih =>
      have entry : (front ++ item :: rest ++ popped)[front.length]? = some item := by
        rw [List.append_assoc, List.getElem?_append_right (Nat.le_refl _), Nat.sub_self]
        rfl
      cases taken : s.takeItem lastAck item with
      | none =>
          have next := ih (front ++ [item])
          simp only [List.append_assoc, List.singleton_append, List.length_append,
            List.length_cons, List.length_nil] at next
          simp only [List.append_assoc] at entry
          simp only [List.append_assoc, List.length_append, List.length_cons, innerLoop, entry,
            taken]
          rcases next with ⟨stops, keeps⟩ | found
          · refine .inl ⟨stops, ?_⟩
            intro other member
            rcases List.mem_cons.mp member with rfl | member
            · exact taken
            · exact keeps other member
          · exact .inr found
      | some result =>
          obtain ⟨item', ack⟩ := result
          obtain ⟨kept, perm, swapped⟩ := swapped_eq front rest popped item item'
          refine .inr ⟨item, item', ack, kept, taken, perm, ?_⟩
          have last : (front ++ item :: rest ++ popped).length - (popped.length + 1) =
              (front ++ item :: rest).length - 1 := by
            simp
            omega
          simp only [List.length_cons, innerLoop, entry, taken, last, swapped]

/-- **The loops take items in any order.** A property of `lastAck`, the items that
stay and the items taken that survives reordering the former and taking one item
holds after the loops, and then no item can be taken. -/
theorem outerLoop_rule {s : TCPSocket}
    (holds : Seq → List ReceiveItem → List ReceiveItem → Prop)
    (reorder : ∀ {lastAck active active' popped}, active.Perm active' →
      holds lastAck active popped → holds lastAck active' popped)
    (takes : ∀ {lastAck item item' ack active popped}, holds lastAck (item :: active) popped →
      s.takeItem lastAck item = some (item', ack) → holds ack active (item' :: popped))
    (count : Nat) (lastAck : Seq) (active popped : List ReceiveItem)
    (enough : active.length ≤ count) (start : holds lastAck active popped) :
    ∃ ack active' popped',
      s.outerLoop (active ++ popped).length count popped.length lastAck (active ++ popped) =
        (popped'.length, ack, active' ++ popped') ∧
      holds ack active' popped' ∧ ∀ item ∈ active', s.takeItem ack item = none := by
  induction count generalizing lastAck active popped with
  | zero =>
      have empty : active = [] := List.length_eq_zero_iff.mp (by omega)
      exact ⟨lastAck, active, popped, rfl, start, by simp [empty]⟩
  | succ count ih =>
      have rounds : (active ++ popped).length - popped.length = active.length := by simp
      simp only [outerLoop, rounds]
      rcases innerLoop_spec s lastAck popped [] active with
        ⟨stops, keeps⟩ | ⟨item, item', ack, kept, taken, perm, found⟩
      · simp only [List.nil_append, List.length_nil] at stops
        exact ⟨lastAck, active, popped, by rw [stops], start, keeps⟩
      · simp only [List.nil_append, List.length_nil] at found perm
        have shorter : kept.length + 1 = active.length := perm.length_eq
        have total : (active ++ popped).length = (kept ++ item' :: popped).length := by
          simp only [List.length_append, List.length_cons]
          omega
        rw [found]
        dsimp only
        rw [total, ← List.length_cons (a := item')]
        exact ih ack kept (item' :: popped) (by omega)
          (takes (reorder perm.symm start) taken)

/-! ## Emitting the taken items -/

/-- The events for a buffer offered to `ondata`. -/
def dataEvents (ondata : Bool) (u8 : Option Bytes) : List Event :=
  if ondata then (u8.map Event.ondata).toList else []

theorem emitData_eq (s : TCPSocket) (u8 : Option Bytes) :
    s.emitData u8 = { s with events := s.events ++ dataEvents s.ondata u8 } := by
  cases u8 with
  | none => simp [emitData, dataEvents]
  | some u8 =>
      by_cases set : s.ondata
      · simp [emitData, dataEvents, emit, set]
      · rw [dataEvents, if_neg set, List.append_nil]
        exact if_neg set

/-- The taken items are emitted in the order they were taken. -/
theorem popItems_eq (s : TCPSocket) (active popped : List ReceiveItem)
    (queue : s.receiveQueue = active ++ popped) :
    s.popItems popped.length = { s with
      receiveQueue := active
      events := s.events ++ popped.reverse.flatMap fun item => dataEvents s.ondata item.u8 } := by
  induction popped using List.reverseRecOn generalizing s with
  | nil =>
      rw [List.append_nil] at queue
      simp [popItems, ← queue]
  | append_singleton popped item ih =>
      have last : s.receiveQueue.getLast? = some item := by
        rw [queue, ← List.append_assoc, List.getLast?_append, List.getLast?_singleton]
        rfl
      have rest : s.receiveQueue.dropLast = active ++ popped := by
        rw [queue, ← List.append_assoc, List.dropLast_concat]
      simp only [List.length_append, List.length_cons, List.length_nil, popItems, last, rest,
        emitData_eq]
      rw [ih _ rfl]
      simp

/-- **The rule for `_processReceiveQueue`**, up to its final `_sendTransmitQueue`. -/
theorem processReceiveQueue_rule (now : Nat) {s : TCPSocket}
    (holds : Seq → List ReceiveItem → List ReceiveItem → Prop)
    (reorder : ∀ {lastAck active active' popped}, active.Perm active' →
      holds lastAck active popped → holds lastAck active' popped)
    (takes : ∀ {lastAck item item' ack active popped}, holds lastAck (item :: active) popped →
      s.takeItem lastAck item = some (item', ack) → holds ack active (item' :: popped))
    (start : holds s.receiveWindowEdge s.receiveQueue []) :
    ∃ lastAck active popped, holds lastAck active popped ∧
      (∀ item ∈ active, s.takeItem lastAck item = none) ∧
      (popped = [] → lastAck = s.receiveWindowEdge) ∧
      ReceiveFrame
        { s with
          receiveWindowEdge := lastAck
          receiveQueue := active
          events := s.events ++ popped.reverse.flatMap fun item => dataEvents s.ondata item.u8 }
        (s.processReceiveQueue now) := by
  have tracked : ∀ {lastAck item item' ack active popped},
      (holds lastAck (item :: active) popped ∧ (popped = [] → lastAck = s.receiveWindowEdge)) →
      s.takeItem lastAck item = some (item', ack) →
      holds ack active (item' :: popped) ∧ (item' :: popped = [] → ack = s.receiveWindowEdge) :=
    fun both taken => ⟨takes both.1 taken, fun empty => by simp at empty⟩
  obtain ⟨lastAck, active, popped, loops, ⟨after, unmoved⟩, none_left⟩ := outerLoop_rule
    (s := s) (fun lastAck active popped =>
      holds lastAck active popped ∧ (popped = [] → lastAck = s.receiveWindowEdge))
    (fun perm both => ⟨reorder perm both.1, both.2⟩) tracked s.receiveQueue.length
    s.receiveWindowEdge s.receiveQueue [] (Nat.le_refl _) ⟨start, fun _ => rfl⟩
  rw [List.append_nil] at loops
  refine ⟨lastAck, active, popped, after, none_left, unmoved, ?_⟩
  have unfolded : s.processReceiveQueue now =
      if popped.length > 0 then
        (((({ s with receiveQueue := active ++ popped } : TCPSocket).popItems
          popped.length).receiveWindowSlideTo lastAck).requireACK).sendTransmitQueue now
      else { s with receiveQueue := active ++ popped } := by
    rw [List.length_nil] at loops
    simp only [processReceiveQueue, loops]
  rw [unfolded]
  by_cases removed : popped.length > 0
  · rw [if_pos removed, popItems_eq _ active popped rfl]
    refine ReceiveFrame.trans ?_ (.sendTransmitQueue now _)
    exact ⟨rfl, rfl, rfl, rfl, rfl, rfl, .inl ⟨rfl, rfl⟩⟩
  · have empty : popped = [] := List.length_eq_zero_iff.mp (by omega)
    rw [if_neg removed, unmoved empty, empty]
    simp only [List.append_nil, List.reverse_nil, List.flatMap_nil]
    exact .refl _

/-! ## Callbacks -/

/-- Only data is passed to the owner; its callbacks and the size of the receive window
stay as they are. -/
structure Delivers (s t : TCPSocket) : Prop where
  receiveWindowSize : t.receiveWindowSize = s.receiveWindowSize
  ondata : t.ondata = s.ondata
  onend : t.onend = s.onend
  onclose : t.onclose = s.onclose
  callbacks : ∃ more, t.callbacks = s.callbacks ++ more ∧ ∀ event ∈ more, ∃ u8, event = .ondata u8

theorem ReceiveFrame.delivers {s t : TCPSocket} (frame : ReceiveFrame s t) : Delivers s t :=
  ⟨frame.receiveWindowSize, frame.ondata, frame.onend, frame.onclose, [], by rw [frame.callbacks, List.append_nil], by simp⟩

namespace Delivers

theorem trans {s t u : TCPSocket} (first : Delivers s t) (second : Delivers t u) :
    Delivers s u := by
  obtain ⟨size, ondata, onend, onclose, more, callbacks, data⟩ := first
  obtain ⟨size', ondata', onend', onclose', more', callbacks', data'⟩ := second
  refine ⟨size'.trans size, ondata'.trans ondata, onend'.trans onend, onclose'.trans onclose, more ++ more',
    by rw [callbacks', callbacks, List.append_assoc], ?_⟩
  intro event member
  rcases List.mem_append.mp member with member | member
  · exact data event member
  · exact data' event member

/-- An event other than `ondata` has happened as often as before. -/
theorem count {s t : TCPSocket} (delivers : Delivers s t) {event : Event}
    (other : ∀ u8, event ≠ .ondata u8) : t.callbacks.count event = s.callbacks.count event := by
  obtain ⟨more, callbacks, data⟩ := delivers.callbacks
  have none_ : more.count event = 0 := by
    rw [List.count_eq_zero]
    intro member
    obtain ⟨u8, isData⟩ := data event member
    exact other u8 isData
  rw [callbacks, List.count_append, none_, Nat.add_zero]

theorem count_onend {s t : TCPSocket} (delivers : Delivers s t) :
    t.callbacks.count .onend = s.callbacks.count .onend :=
  delivers.count nofun

theorem count_onclose {s t : TCPSocket} (delivers : Delivers s t) :
    t.callbacks.count .onclose = s.callbacks.count .onclose :=
  delivers.count nofun

theorem emitted (s : TCPSocket) (items : List ReceiveItem) :
    Delivers s { s with
      events := s.events ++ items.flatMap fun item => dataEvents s.ondata item.u8 } := by
  refine ⟨rfl, rfl, rfl, rfl, (items.flatMap fun item => dataEvents s.ondata item.u8).filter
    Event.isCallback, by simp only [TCPSocket.callbacks, List.filter_append], ?_⟩
  intro event member
  obtain ⟨item, -, event⟩ := List.mem_flatMap.mp (List.mem_filter.mp member).1
  cases u8 : item.u8 with
  | none => simp [dataEvents, u8] at event
  | some bytes =>
      cases set : s.ondata with
      | false => simp [dataEvents, set] at event
      | true => exact ⟨bytes, by simpa [dataEvents, u8, set] using event⟩

theorem processReceiveQueue (now : Nat) (s : TCPSocket) :
    Delivers s (s.processReceiveQueue now) := by
  obtain ⟨lastAck, active, popped, -, -, -, frame⟩ := processReceiveQueue_rule now (s := s)
    (fun _ _ _ => True) (fun _ _ => trivial) (fun _ _ => trivial) trivial
  have ⟨size, ondata, onend, onclose, callbacks⟩ := emitted s popped.reverse
  refine trans ?_ frame.delivers
  exact ⟨size, ondata, onend, onclose, callbacks⟩

theorem insertReceiveQueue (now : Nat) (s : TCPSocket) (item : ReceiveItem) :
    Delivers s (s.insertReceiveQueue now item) := by
  unfold TCPSocket.insertReceiveQueue
  dsimp only
  split
  · have ⟨size, ondata, onend, onclose, callbacks⟩ := emitted s [item]
    rw [List.flatMap_singleton] at callbacks
    rw [emitData_eq]
    have fast : Delivers s (((({ s with events := s.events ++ dataEvents s.ondata item.u8 } :
        TCPSocket).receiveWindowSlideTo (seqInc item.seq item.len)).requireACK).sendTransmitQueue
          now) := by
      refine trans ?_ (ReceiveFrame.sendTransmitQueue now _).delivers
      exact ⟨size, ondata, onend, onclose, callbacks⟩
    split
    · exact fast
    · exact fast.trans (processReceiveQueue now _)
  · have ⟨size, ondata, onend, onclose, callbacks⟩ :=
      processReceiveQueue now { s with receiveQueue := s.receiveQueue ++ [item] }
    exact ⟨size, ondata, onend, onclose, callbacks⟩

theorem receiveData (now : Nat) (segment : Segment) (s : TCPSocket) :
    Delivers s (s.receiveData now segment) := by
  have acked := (ReceiveFrame.acceptACK now segment.ackNumber segment.windowSize.toNat s).delivers
  unfold TCPSocket.receiveData
  dsimp only
  split
  · exact acked.trans (insertReceiveQueue now _ _)
  · exact acked

end Delivers

end TCPSocket

end JsOS.Net.Tcp
