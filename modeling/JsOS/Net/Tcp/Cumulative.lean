import JsOS.Net.Tcp.FlowControl

/-! # Cumulative acknowledgement

The items of the transmit queue cover the bytes in flight (`Covers`); the first one
may have been acknowledged in part. An acknowledgement in flight removes the items
that end at or before it, and what is left covers what is left in flight
(`Covers.acknowledged`). The test for the end of an item is made with the edge already
moved, and the distance from the old edge decides it, wherever on the circle the items
lie.

`_acceptACK` then fills the queue again, and the fill ends in a pass of
`_sendTransmitQueue`: an item that is due is counted, and one that has been sent eight
times resets the connection (`acceptACK_cumulative`).
-/

namespace JsOS.Net.Tcp

open Circular

/-- The end of an item. -/
def TransmitItem.itemEnd (item : TransmitItem) : Seq := seqInc item.seq item.len

/-- The items lie one after the other between two offsets from the edge. -/
def Adjacent (edge : Seq) : Int → List TransmitItem → Int → Prop
  | first, [], last => first = last
  | first, item :: items, last =>
      item.seq = seqInc edge first ∧ 0 < item.len ∧ Adjacent edge (first + item.len) items last

instance Adjacent.decidable (edge : Seq) :
    ∀ (first : Int) (items : List TransmitItem) (last : Int), Decidable (Adjacent edge first items last)
  | first, [], last => inferInstanceAs (Decidable (first = last))
  | first, item :: items, last =>
      have := Adjacent.decidable edge (first + item.len) items last
      inferInstanceAs (Decidable (item.seq = seqInc edge first ∧ 0 < item.len ∧
        Adjacent edge (first + item.len) items last))

/-- What the passes of `_sendTransmitQueue` made at one time do to an item. -/
structure TransmitItem.Resent (now : Nat) (before after : TransmitItem) : Prop where
  content : after.content = before.content
  counted : before.retransmits ≤ after.retransmits
  early : before.due now = false → after = before

/-- No number of passes made at this time brings the item to the limit. -/
def TransmitItem.Lasting (now : Nat) (item : TransmitItem) : Prop :=
  item.retransmits ≤ 7 ∧ now ≤ item.timeAdded + 7 * 2000

theorem TransmitItem.Resent.refl (now : Nat) (item : TransmitItem) : item.Resent now item :=
  ⟨rfl, Nat.le_refl _, fun _ => rfl⟩

theorem TransmitItem.Resent.trans {now : Nat} {first second third : TransmitItem}
    (before : first.Resent now second) (after : second.Resent now third) :
    first.Resent now third := by
  refine ⟨after.content.trans before.content, before.counted.trans after.counted, fun early => ?_⟩
  have same := before.early early
  rw [after.early (by rw [same, early]), same]

theorem TransmitItem.resent_resend (now : Nat) (item : TransmitItem) :
    item.Resent now (item.resend now) := by
  refine ⟨item.content_resend now, ?_, fun early => ?_⟩
  · unfold resend
    split
    · exact Nat.le_succ _
    · exact Nat.le_refl _
  · rw [resend, early, if_neg Bool.false_ne_true]

theorem TransmitItem.Lasting.resend {now : Nat} {item : TransmitItem} (lasting : item.Lasting now) :
    (item.resend now).Lasting now := by
  obtain ⟨below, recent⟩ := lasting
  unfold TransmitItem.resend
  split
  · next due =>
      refine ⟨?_, recent⟩
      unfold TransmitItem.due at due
      simp only [gt_iff_lt, Bool.or_eq_true, decide_eq_true_eq] at due
      change item.retransmits + 1 ≤ 7
      rcases Nat.lt_or_ge item.retransmits 7 with small | large
      · exact small
      · have seven : item.retransmits = 7 := by omega
        rw [seven] at due
        omega
  · exact ⟨below, recent⟩

/-- Where a predicate of the elements only changes once along a list, dropping the
elements in front is filtering. -/
theorem dropWhile_eq_filter {Element : Type*} {drops : Element → Bool} {elements : List Element}
    (ordered : elements.Pairwise fun first second => drops second → drops first) :
    elements.dropWhile drops = elements.filter fun element => !drops element := by
  induction elements with
  | nil => rfl
  | cons element elements ih =>
      obtain ⟨ahead, later⟩ := List.pairwise_cons.mp ordered
      by_cases dropped : drops element
      · rw [List.dropWhile_cons_of_pos dropped, ih later]
        simp [dropped]
      · rw [List.dropWhile_cons_of_neg dropped]
        symm
        rw [List.filter_eq_self]
        intro other member
        rcases List.mem_cons.mp member with rfl | member
        · simpa using dropped
        · simpa using fun again => dropped (ahead other member again)

namespace Adjacent

variable {edge : Seq} {first last : Int} {item : TransmitItem} {items : List TransmitItem}

theorem le (adjacent : Adjacent edge first items last) : first ≤ last := by
  induction items generalizing first with
  | nil => exact adjacent.le
  | cons item items ih =>
      obtain ⟨-, positive, rest⟩ := adjacent
      have := ih rest
      omega

/-- The distance from the edge to the end of an item. -/
theorem ahead_itemEnd (start : item.seq = seqInc edge first) (positive : 0 < first + item.len)
    (small : first + item.len < 4294967296) :
    (ahead edge item.itemEnd : Int) = first + item.len := by
  obtain ⟨count, equal⟩ := Int.eq_ofNat_of_zero_le positive.le
  rw [TransmitItem.itemEnd, start, seqInc_seqInc, equal, seqInc_natCast, ahead_add_ofNat _ (by omega)]

/-- The items end one after the other behind the edge. -/
theorem ordered (adjacent : Adjacent edge first items last) (small : last < 4294967296)
    (beyond : ∀ item ∈ items.head?, 0 < first + item.len) :
    items.Pairwise (fun before after => ahead edge before.itemEnd < ahead edge after.itemEnd) ∧
      ∀ item ∈ items, 0 < ahead edge item.itemEnd ∧ first < ahead edge item.itemEnd ∧
        (ahead edge item.itemEnd : Int) ≤ last := by
  induction items generalizing first with
  | nil => simp
  | cons item items ih =>
      obtain ⟨start, positive, rest⟩ := adjacent
      have inside := rest.le
      have reach : 0 < first + item.len := beyond item rfl
      have distance := ahead_itemEnd start reach (by omega)
      obtain ⟨pairwise, bounds⟩ := ih rest fun next member => by
        cases items with
        | nil => cases member
        | cons other items =>
            cases member
            have := rest.2.1
            omega
      constructor
      · refine List.pairwise_cons.mpr ⟨fun other member => ?_, pairwise⟩
        have := bounds other member
        omega
      · intro other member
        rcases List.mem_cons.mp member with rfl | member
        · omega
        · have := bounds other member
          omega

/-- The items behind a position lie one after the other as well. -/
theorem dropWhile (adjacent : Adjacent edge first items last) (small : last < 4294967296)
    (beyond : ∀ item ∈ items.head?, 0 < first + item.len) {cut : Nat} (before : first ≤ cut) :
    ∃ start : Int, start ≤ cut ∧
      Adjacent edge start (items.dropWhile fun item => ahead edge item.itemEnd ≤ cut) last ∧
      ∀ item ∈ (items.dropWhile fun item => ahead edge item.itemEnd ≤ cut).head?,
        cut < start + item.len := by
  induction items generalizing first with
  | nil => exact ⟨first, before, adjacent, by simp⟩
  | cons item items ih =>
      obtain ⟨start, positive, rest⟩ := adjacent
      have inside := rest.le
      have reach : 0 < first + item.len := beyond item rfl
      have distance := ahead_itemEnd start reach (by omega)
      by_cases ended : ahead edge item.itemEnd ≤ cut
      · rw [List.dropWhile_cons_of_pos (by simpa using ended)]
        refine ih rest (fun next member => ?_) (by omega)
        cases items with
        | nil => cases member
        | cons other items =>
            cases member
            have := rest.2.1
            omega
      · rw [List.dropWhile_cons_of_neg (by simpa using ended)]
        refine ⟨first, before, ⟨start, positive, rest⟩, fun next member => ?_⟩
        cases member
        omega

/-- The offsets from a later edge. -/
theorem shift (adjacent : Adjacent edge first items last) (cut : Nat) :
    Adjacent (seqInc edge cut) (first - cut) items (last - cut) := by
  induction items generalizing first with
  | nil => exact congrArg (· - (cut : Int)) adjacent
  | cons item items ih =>
      obtain ⟨start, positive, rest⟩ := adjacent
      refine ⟨?_, positive, ?_⟩
      · rw [start, seqInc_seqInc]
        congr 1
        omega
      · have shifted := ih rest
        rwa [show first + item.len - cut = first - cut + item.len by omega] at shifted

end Adjacent

namespace TCPSocket

/-- The items of the transmit queue cover what is in flight. Of the first item, `acked`
bytes are acknowledged already, but not all. -/
structure Covers (acked : Nat) (s : TCPSocket) : Prop where
  adjacent : Adjacent s.transmitWindowEdge (-acked) s.transmitQueue s.inflight
  beyond : ∀ item ∈ s.transmitQueue.head?, (acked : Int) < item.len

instance (acked : Nat) (s : TCPSocket) : Decidable (s.Covers acked) :=
  decidable_of_iff (Adjacent s.transmitWindowEdge (-acked) s.transmitQueue s.inflight ∧
    ∀ item ∈ s.transmitQueue.head?, (acked : Int) < item.len)
    ⟨fun covers => ⟨covers.1, covers.2⟩, fun covers => ⟨covers.1, covers.2⟩⟩

/-- The acknowledgement number lies in flight. -/
def InFlight (s : TCPSocket) (ackNumber : Seq) : Prop :=
  0 < ahead s.transmitWindowEdge ackNumber ∧ ahead s.transmitWindowEdge ackNumber ≤ s.inflight

/-- The socket with the window moved, before the queue is cleaned up. -/
def slidTo (s : TCPSocket) (ackNumber : Seq) (windowSize : Nat) : TCPSocket :=
  { s with transmitWindowSize := windowSize, transmitWindowEdge := ackNumber }

instance (s : TCPSocket) (ackNumber : Seq) : Decidable (s.InFlight ackNumber) :=
  inferInstanceAs (Decidable (_ ∧ _))

/-- The items that end after the acknowledgement number. -/
def unackedItems (s : TCPSocket) (ackNumber : Seq) : List TransmitItem :=
  s.transmitQueue.filter fun item =>
    ahead s.transmitWindowEdge ackNumber < ahead s.transmitWindowEdge item.itemEnd

/-- The connection was reset since. -/
def Resets (s t : TCPSocket) : Prop :=
  ∃ events, t.events = s.events ++ events ∧ .destroy ∈ events

/-- The items are still in front of the transmit queue, in order. -/
def Retains (now : Nat) (items : List TransmitItem) (t : TCPSocket) : Prop :=
  ∃ again later, t.transmitQueue = again ++ later ∧ List.Forall₂ (TransmitItem.Resent now) items again

variable {s t : TCPSocket} {now acked windowSize : Nat} {ackNumber : Seq}

theorem acceptsACK_iff : s.AcceptsACK ackNumber ↔ s.InFlight ackNumber := by
  rw [AcceptsACK, isTransmittedUnacked_iff, InFlight]
  refine ⟨And.right, fun inside => ⟨fun same => ?_, inside⟩⟩
  have := ahead_pos_iff.mp inside.1
  exact this same.symm

/-! ## What is removed -/

namespace Covers

theorem beyond_edge (covers : s.Covers acked) :
    ∀ item ∈ s.transmitQueue.head?, 0 < -(acked : Int) + item.len := by
  intro item member
  have := covers.beyond item member
  omega

theorem inflight_lt (s : TCPSocket) : (s.inflight : Int) < 4294967296 := by
  have := ahead_lt s.transmitWindowEdge s.transmitPosition
  unfold inflight
  omega

/-- **The test with the moved edge.** The end of an item is unacknowledged exactly when
it lies after the acknowledgement number. -/
theorem isTransmittedUnacked_itemEnd (covers : s.Covers acked) (inside : s.InFlight ackNumber)
    (windowSize : Nat) {item : TransmitItem} (member : item ∈ s.transmitQueue) :
    (s.slidTo ackNumber windowSize).isTransmittedUnacked item.itemEnd ↔
      ahead s.transmitWindowEdge ackNumber < ahead s.transmitWindowEdge item.itemEnd := by
  obtain ⟨-, bounds⟩ := covers.adjacent.ordered (inflight_lt s) covers.beyond_edge
  obtain ⟨positive, -, bound⟩ := bounds item member
  obtain ⟨after, within⟩ := inside
  have rest : ahead ackNumber s.transmitPosition =
      s.inflight - ahead s.transmitWindowEdge ackNumber := ahead_of_le _ within
  rw [isTransmittedUnacked_iff]
  change 0 < ahead ackNumber item.itemEnd ∧
    ahead ackNumber item.itemEnd ≤ ahead ackNumber s.transmitPosition ↔ _
  rw [rest]
  rcases Nat.lt_or_ge (ahead s.transmitWindowEdge item.itemEnd)
    (ahead s.transmitWindowEdge ackNumber) with ended | open_
  · have round := ahead_of_lt _ ended
    have := inflight_lt s
    omega
  · have distance := ahead_of_le _ open_
    omega

/-- The first items are dropped exactly when they are acknowledged. -/
theorem acknowledged_dropWhile (covers : s.Covers acked) (inside : s.InFlight ackNumber)
    (windowSize : Nat) :
    (s.acknowledged ackNumber windowSize).transmitQueue = s.transmitQueue.dropWhile fun item =>
      ahead s.transmitWindowEdge item.itemEnd ≤ ahead s.transmitWindowEdge ackNumber := by
  have same (items : List TransmitItem) (part : ∀ item ∈ items, item ∈ s.transmitQueue) :
      items.dropWhile (fun item =>
          !(s.slidTo ackNumber windowSize).isTransmittedUnacked item.itemEnd) =
        items.dropWhile fun item =>
          ahead s.transmitWindowEdge item.itemEnd ≤ ahead s.transmitWindowEdge ackNumber := by
    induction items with
    | nil => rfl
    | cons item items ih =>
        have test := covers.isTransmittedUnacked_itemEnd inside windowSize
          (part item List.mem_cons_self)
        have later := ih fun other member => part other (List.mem_cons_of_mem _ member)
        simp only [List.dropWhile_cons, Bool.not_eq_true', decide_eq_true_eq]
        by_cases ended : ahead s.transmitWindowEdge item.itemEnd ≤
            ahead s.transmitWindowEdge ackNumber
        · have acknowledged := Bool.eq_false_iff.mpr (test.not.mpr (Nat.not_lt.mpr ended))
          rw [if_pos acknowledged, if_pos ended, later]
        · have open_ := test.mpr (Nat.lt_of_not_le ended)
          rw [if_neg (by rw [open_]; exact Bool.noConfusion), if_neg ended]
  exact same s.transmitQueue fun _ member => member

/-- **Removed are the items that end at or before the acknowledgement number.** -/
theorem acknowledged_transmitQueue (covers : s.Covers acked) (inside : s.InFlight ackNumber)
    (windowSize : Nat) :
    (s.acknowledged ackNumber windowSize).transmitQueue = s.unackedItems ackNumber := by
  obtain ⟨ordered, -⟩ := covers.adjacent.ordered (inflight_lt s) covers.beyond_edge
  rw [covers.acknowledged_dropWhile inside, unackedItems, dropWhile_eq_filter]
  · simp only [← decide_not, Nat.not_le]
  · refine ordered.imp fun {first second} closer ended => ?_
    simp only [decide_eq_true_eq] at ended ⊢
    omega

/-- What is left covers what is left in flight. -/
theorem acknowledged (covers : s.Covers acked) (inside : s.InFlight ackNumber) (windowSize : Nat) :
    ∃ left, (s.acknowledged ackNumber windowSize).Covers left := by
  obtain ⟨start, before, adjacent, beyond⟩ := covers.adjacent.dropWhile (inflight_lt s)
    covers.beyond_edge (show -(acked : Int) ≤ ahead s.transmitWindowEdge ackNumber by omega)
  rw [← covers.acknowledged_dropWhile inside windowSize] at adjacent beyond
  have moved : seqInc s.transmitWindowEdge (ahead s.transmitWindowEdge ackNumber) = ackNumber := by
    rw [seqInc_natCast, add_ahead]
  have rest : ahead ackNumber s.transmitPosition =
      s.inflight - ahead s.transmitWindowEdge ackNumber := ahead_of_le _ inside.2
  have within := inside.2
  obtain ⟨left, equal⟩ := Int.eq_ofNat_of_zero_le
    (show 0 ≤ ahead s.transmitWindowEdge ackNumber - start by omega)
  refine ⟨left, ?_, fun item member => ?_⟩
  · have shifted := adjacent.shift (ahead s.transmitWindowEdge ackNumber)
    rw [moved, show start - ahead s.transmitWindowEdge ackNumber = -(left : Int) by omega,
      show (s.inflight : Int) - ahead s.transmitWindowEdge ackNumber =
        (ahead ackNumber s.transmitPosition : Nat) by omega] at shifted
    exact shifted
  · have := beyond item member
    omega

end Covers

/-! ## The fill -/

/-- What a part of `_fillTransmitQueue` does to the items that are in the queue already. -/
structure Carries (now : Nat) (s t : TCPSocket) : Prop where
  retains : Resets s t ∨ Retains now s.transmitQueue t
  lasting : (∀ item ∈ s.transmitQueue, item.Lasting now) →
    (∀ item ∈ t.transmitQueue, item.Lasting now) ∧
      ∃ events, t.events = s.events ++ events ∧ .destroy ∉ events
  extends_ : ∃ events, t.events = s.events ++ events

theorem forall₂_resent_refl (now : Nat) (items : List TransmitItem) :
    List.Forall₂ (TransmitItem.Resent now) items items :=
  List.forall₂_same.mpr fun item _ => .refl now item

theorem resent_of_mem {items again : List TransmitItem}
    (kept : List.Forall₂ (TransmitItem.Resent now) items again) {item : TransmitItem}
    (member : item ∈ items) : ∃ after ∈ again, item.Resent now after := by
  induction kept with
  | nil => cases member
  | cons resent _ ih =>
      rcases List.mem_cons.mp member with rfl | member
      · exact ⟨_, List.mem_cons_self, resent⟩
      · obtain ⟨after, present, resent⟩ := ih member
        exact ⟨after, List.mem_cons_of_mem _ present, resent⟩

theorem forall₂_resent_trans {first second third later : List TransmitItem}
    (before : List.Forall₂ (TransmitItem.Resent now) first second)
    (after : List.Forall₂ (TransmitItem.Resent now) (second ++ later) third) :
    ∃ front back, third = front ++ back ∧ List.Forall₂ (TransmitItem.Resent now) first front := by
  induction before generalizing third with
  | nil => exact ⟨[], third, rfl, .nil⟩
  | cons resent _ ih =>
      cases after with
      | cons again rest =>
          obtain ⟨front, back, rfl, kept⟩ := ih rest
          exact ⟨_ :: front, back, rfl, .cons (resent.trans again) kept⟩

namespace Carries

/-- Nothing is taken from the queue, and what is added has not been sent. -/
theorem of_push {events : List Event} {items : List TransmitItem}
    (queue : t.transmitQueue = s.transmitQueue ++ items) (record : t.events = s.events ++ events)
    (quiet : .destroy ∉ events) (fresh : ∀ item ∈ items, item.Lasting now) : Carries now s t where
  retains := .inr ⟨s.transmitQueue, items, queue, forall₂_resent_refl now _⟩
  lasting := fun lasting => by
    refine ⟨fun item member => ?_, events, record, quiet⟩
    rw [queue] at member
    rcases List.mem_append.mp member with member | member
    · exact lasting item member
    · exact fresh item member
  extends_ := ⟨events, record⟩

/-- Neither the queue nor the record changes. -/
theorem of_same (queue : t.transmitQueue = s.transmitQueue) (record : t.events = s.events) :
    Carries now s t := by
  have added : t.transmitQueue = s.transmitQueue ++ [] := by rw [queue, List.append_nil]
  have recorded : t.events = s.events ++ [] := by rw [record, List.append_nil]
  exact .of_push added recorded (by simp) (by simp)

theorem trans {u : TCPSocket} (first : Carries now s t) (second : Carries now t u) :
    Carries now s u := by
  obtain ⟨before, between⟩ := first.extends_
  obtain ⟨after, ends⟩ := second.extends_
  have record : u.events = s.events ++ (before ++ after) := by
    rw [ends, between, List.append_assoc]
  refine ⟨?_, fun lasting => ?_, before ++ after, record⟩
  · rcases first.retains with ⟨events, equal, destroyed⟩ | ⟨again, later, queue, kept⟩
    · refine .inl ⟨events ++ after, ?_, List.mem_append_left _ destroyed⟩
      rw [ends, equal, List.append_assoc]
    · rcases second.retains with ⟨events, equal, destroyed⟩ | ⟨again', later', queue', kept'⟩
      · refine .inl ⟨before ++ events, ?_, List.mem_append_right _ destroyed⟩
        rw [equal, between, List.append_assoc]
      · rw [queue] at kept'
        obtain ⟨front, back, split, still⟩ := forall₂_resent_trans kept kept'
        exact .inr ⟨front, back ++ later', by rw [queue', split, List.append_assoc], still⟩
  · obtain ⟨still, events, equal, quiet⟩ := first.lasting lasting
    obtain ⟨still', events', equal', quiet'⟩ := second.lasting still
    refine ⟨still', events ++ events', by rw [equal', equal, List.append_assoc], ?_⟩
    simp [quiet, quiet']

theorem sendTransmitQueue (now : Nat) (s : TCPSocket) : Carries now s (s.sendTransmitQueue now) := by
  by_cases below : s.BelowLimit
  · obtain ⟨packets, transmits, after⟩ := sendTransmitQueue_of_below now below
    have quiet : .destroy ∉ packets := fun member => Bool.noConfusion (transmits _ member)
    rw [after]
    refine ⟨.inr ⟨s.transmitQueue.map (TransmitItem.resend now), [], (List.append_nil _).symm, ?_⟩,
      fun lasting => ⟨fun item member => ?_, packets, rfl, quiet⟩, packets, rfl⟩
    · rw [List.forall₂_map_right_iff, List.forall₂_same]
      exact fun item _ => item.resent_resend now
    · obtain ⟨old, present, rfl⟩ := List.mem_map.mp member
      exact (lasting old present).resend
  · obtain ⟨packets, ack, -, after⟩ := sendTransmitQueue_of_limit now below
    rw [after]
    refine ⟨.inl ⟨packets ++ [.destroy], List.append_assoc .., by simp⟩, fun lasting => ?_,
      packets ++ [.destroy], List.append_assoc ..⟩
    exact absurd (fun item member => (lasting item member).1) below

theorem fillStable (now : Nat) : FillStable now (Carries now) where
  refl s := .of_same rfl rfl
  trans first second := first.trans second
  pushData s count u8 := .of_push rfl rfl (by simp) (by simp [dataItem, TransmitItem.Lasting])
  pushPart s count u8 queue :=
    .of_push rfl rfl (by simp) (by simp [dataItem, TransmitItem.Lasting])
  pushFIN s := .of_push rfl rfl (by simp) (by simp [finItem, TransmitItem.Lasting])
  shift s remove := .of_same rfl rfl
  enqueue s u8 _ := .of_same rfl rfl
  ondrain s later := .of_same rfl rfl
  send s := sendTransmitQueue now s

end Carries

/-- What the loop has pushed has not been sent. -/
theorem fillQueue_retransmits (now : Nat) (right position : Seq) (queue : List (Option Bytes)) :
    ∀ item ∈ (fillQueue now right position queue).items, item.retransmits = 0 := by
  fun_induction fillQueue now right position queue with
  | case1 | case3 => simp
  | case2 position queue fill ih => simpa [finItem] using ih
  | case4 position buf queue reserved open_ whole fill ih => simpa [dataItem] using ih
  | case5 => simp [dataItem]

/-- The fill ends in a pass of `_sendTransmitQueue`. -/
theorem fillTransmitQueue_ends (now : Nat) (s : TCPSocket) :
    ∃ u, Carries now s u ∧ s.fillTransmitQueue now = u.sendTransmitQueue now := by
  have stable := Carries.fillStable now
  have body (ondrain : TCPSocket → TCPSocket) (drains : ∀ s, Carries now s (ondrain s)) :
      ∃ u, Carries now s u ∧ s.fillBody now ondrain = u.sendTransmitQueue now :=
    ⟨_, (stable.fillLoop drains s.queueTx.length 0 0 s).trans (stable.shift _ _), rfl⟩
  unfold fillTransmitQueue
  cases s.ondrain.elim 0 List.length with
  | zero => exact body id stable.refl
  | succ depth => exact body _ (stable.callOndrain (stable.fillNested depth))

/-- At the limit the fill resets the connection. -/
theorem fillTransmitQueue_resets (now : Nat) (limit : ¬ s.BelowLimit) :
    Resets s (s.fillTransmitQueue now) := by
  obtain ⟨u, carries, ends⟩ := fillTransmitQueue_ends now s
  rw [ends]
  rcases carries.retains with destroyed | ⟨again, later, queue, kept⟩
  · obtain ⟨events, record, destroyed⟩ := destroyed
    obtain ⟨more, record'⟩ := (Carries.sendTransmitQueue now u).extends_
    exact ⟨events ++ more, by rw [record', record, List.append_assoc],
      List.mem_append_left _ destroyed⟩
  · have still : ¬ u.BelowLimit := fun below => limit fun item member => by
      obtain ⟨after, present, resent⟩ := resent_of_mem kept member
      exact resent.counted.trans (below after (queue ▸ List.mem_append_left _ present))
    obtain ⟨events, record⟩ := carries.extends_
    obtain ⟨packets, ack, -, after⟩ := sendTransmitQueue_of_limit now still
    rw [after]
    exact ⟨events ++ packets ++ [.destroy], by simp [record], by simp⟩

/-- Without `ondrain` there is one pass, and it resets the connection only at the limit. -/
theorem fillTransmitQueue_quiet (now : Nat) (unset : s.ondrain = none) (below : s.BelowLimit) :
    ¬ Resets s (s.fillTransmitQueue now) := by
  rw [fillTransmitQueue_eq now unset]
  have all : (s.afterFill (s.fillResult now)).BelowLimit := by
    intro item member
    rcases List.mem_append.mp member with member | member
    · exact below item member
    · rw [fillQueue_retransmits _ _ _ _ item member]
      exact Nat.zero_le 7
  obtain ⟨packets, transmits, after⟩ := sendTransmitQueue_of_below now all
  rw [after]
  rintro ⟨events, record, destroyed⟩
  simp only [afterFill, List.append_assoc, List.append_cancel_left_eq] at record
  rw [← record] at destroyed
  rcases List.mem_append.mp destroyed with pushed | transmitted
  · obtain ⟨item, -, ⟨⟩⟩ := List.mem_map.mp pushed
  · exact Bool.noConfusion (transmits _ transmitted)

/-! ## `_acceptACK` -/

/-- **Cumulative acknowledgement.** An acknowledgement number in flight becomes the edge,
and removed are exactly the items that end at or before it. The others stay in front of
the queue, in order and with their content; one that is not due does not change at all.
If one of them has been sent eight times, the connection is reset instead; no other item
does that, unless callbacks of the owner send it again and again. Any other number
changes nothing but the size of the window. -/
theorem acceptACK_cumulative (now : Nat) (covers : s.Covers acked) (ackNumber : Seq)
    (windowSize : Nat) :
    (s.InFlight ackNumber →
      (s.acceptACK now ackNumber windowSize).transmitWindowEdge = ackNumber ∧
      (Resets s (s.acceptACK now ackNumber windowSize) ∨
        Retains now (s.unackedItems ackNumber) (s.acceptACK now ackNumber windowSize)) ∧
      ((∃ item ∈ s.unackedItems ackNumber, 7 < item.retransmits) →
        Resets s (s.acceptACK now ackNumber windowSize)) ∧
      (Resets s (s.acceptACK now ackNumber windowSize) →
        ∃ item ∈ s.unackedItems ackNumber, 7 < item.retransmits ∨
          (s.ondrain ≠ none ∧ item.timeAdded + 7 * 2000 < now))) ∧
    (¬ s.InFlight ackNumber →
      s.acceptACK now ackNumber windowSize = { s with transmitWindowSize := windowSize }) := by
  constructor
  · intro inside
    have kept := covers.acknowledged_transmitQueue inside windowSize
    rw [acceptACK_of_accepts now (acceptsACK_iff.mpr inside), ← kept]
    have carries := (Carries.fillStable now).fillTransmitQueue (s.acknowledged ackNumber windowSize)
    refine ⟨(fillTransmitQueue_window now _).1, carries.retains, ?_, ?_⟩
    · rintro ⟨item, member, limit⟩
      exact fillTransmitQueue_resets now fun below => absurd (below item member) (by omega)
    · intro resets
      by_contra none_
      simp only [not_exists, not_and, not_or, not_lt] at none_
      have below : (s.acknowledged ackNumber windowSize).BelowLimit :=
        fun item member => (none_ item member).1
      by_cases unset : s.ondrain = none
      · exact @fillTransmitQueue_quiet (s.acknowledged ackNumber windowSize) now unset below resets
      · obtain ⟨-, events, record, quiet⟩ := carries.lasting fun item member =>
          ⟨below item member, (none_ item member).2 unset⟩
        obtain ⟨others, record', destroyed⟩ := resets
        have same : events = others := List.append_cancel_left (record.symm.trans record')
        exact quiet (same ▸ destroyed)
  · intro outside
    exact acceptACK_of_not_accepts now (acceptsACK_iff.not.mpr outside) windowSize

/-- Of ten bytes in flight across the zero position, three are acknowledged, and then
three more: the first item of six bytes goes with the second acknowledgement only. -/
theorem acceptACK_cumulative_wrapping :
    let s : TCPSocket :=
      { transmitWindowEdge := 4294967293
        transmitPosition := 4
        transmitQueue := [⟨1, 0, 4294967290, 6, some [1, 2, 3, 4, 5, 6], flagACK ||| flagPSH⟩,
          ⟨1, 0, 0, 4, some [7, 8, 9, 10], flagACK ||| flagPSH⟩] }
    s.unackedItems 0 = [⟨1, 0, 0, 4, some [7, 8, 9, 10], flagACK ||| flagPSH⟩] ∧
      (s.acceptACK 1000 0 500).transmitWindowEdge = 0 ∧
      Retains 1000 (s.unackedItems 0) (s.acceptACK 1000 0 500) ∧
      s.acceptACK 1000 5 500 = { s with transmitWindowSize := 500 } := by
  intro s
  have covers : s.Covers 3 := by decide
  have kept : s.unackedItems 0 = [⟨1, 0, 0, 4, some [7, 8, 9, 10], flagACK ||| flagPSH⟩] := by
    decide
  obtain ⟨edge, retains, -, resets⟩ := (acceptACK_cumulative 1000 covers 0 500).1 (by decide)
  refine ⟨kept, edge, retains.resolve_left fun reset => ?_,
    (acceptACK_cumulative 1000 covers 5 500).2 (by decide)⟩
  obtain ⟨item, member, limit⟩ := resets reset
  rw [kept, List.mem_singleton] at member
  rw [member] at limit
  exact absurd limit (by decide)

/-- Two items in flight, five seconds old: the acknowledgement of the first sends the
second one again, and the copy in the queue is counted. -/
theorem cumulative_counts_due_item :
    ¬ ∀ (iss : Seq) (s : TCPSocket), Started iss s → ∀ inputs : List Input, ∀ acked,
      (Transition.run step s inputs).Covers acked → ∀ now ackNumber windowSize,
      (Transition.run step s inputs).InFlight ackNumber →
        ((Transition.run step s inputs).acceptACK now ackNumber windowSize).transmitQueue =
          (Transition.run step s inputs).unackedItems ackNumber := by
  intro claim
  have same := claim 19999 dialled dialled_started
    [⟨direct 1, .receive (.ofData (flagSYN ||| flagACK) 700 20000 8192 [])⟩,
      ⟨direct 2, .send [1, 2]⟩, ⟨direct 3, .send [3]⟩] 0 (by decide) 5000 20002 8192 (by decide)
  exact absurd same (by decide)

end TCPSocket

end JsOS.Net.Tcp
