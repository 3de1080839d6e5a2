import JsOS.Net.Tcp.Step

/-! # Retransmission

A tick should send every overdue item of the transmit queue again, or reset the
connection and tell its owner when an item has been sent eight times (`Retransmits`).
`_timerTick` has a case for four of the states in which items wait for an
acknowledgement; CLOSE_WAIT and LAST_ACK are missing. `_resetConnection` does not
schedule `onclose` in any state. A tick does its work exactly outside these two gaps
(`Served`, `retransmission_exact`).
-/

namespace JsOS.Net.Tcp

open Transition

/-- The time of the item's next transmission has passed. -/
def TransmitItem.overdue (now : Nat) (item : TransmitItem) : Bool :=
  now > item.timeAdded + 2000 * item.retransmits

theorem TransmitItem.due_of_overdue {now : Nat} {item : TransmitItem}
    (overdue : item.overdue now) : item.due now := by
  simp only [TransmitItem.overdue, TransmitItem.due, gt_iff_lt, decide_eq_true_eq,
    Bool.or_eq_true] at overdue ⊢
  omega

/-- The states in which `_timerTick` sends the transmit queue. -/
def State.ticks : State → Bool
  | .synSent | .synReceived | .established | .finWait1 => true
  | _ => false

/-- Whether the operation is a tick. -/
def Op.isTick : Op → Bool
  | .timerTick => true
  | _ => false

namespace TCPSocket

/-- The packet that sends an item again. -/
def retransmission (s : TCPSocket) (item : TransmitItem) : Event :=
  .transmit item.seq s.receiveWindowEdge item.flags s.receiveWindowSize item.u8

/-- The items to send again. -/
def overdueItems (now : Nat) (s : TCPSocket) : List TransmitItem :=
  s.transmitQueue.filter (TransmitItem.overdue now)

/-- The overdue items have been sent again, in order, with the sequence number, the flags
and the bytes they were queued with. If an item has been sent eight times before, the
connection is reset instead, and `onclose` scheduled if it is set. -/
def Retransmits (now : Nat) (s t : TCPSocket) : Prop :=
  ∃ events, t.events = s.events ++ events ∧
    (s.BelowLimit → ((s.overdueItems now).map s.retransmission).Sublist events) ∧
    (¬ s.BelowLimit → t.state = .closed ∧ .destroy ∈ events ∧
      (s.onclose = true → .onclose ∈ events))

/-- The input is a tick of an open socket that has a route and items in flight. -/
def Waits (s : TCPSocket) (input : Input) : Prop :=
  input.op.isTick ∧ (s.configure input.env).1 = true ∧ s.state ≠ .closed ∧ s.transmitQueue ≠ []

/-- The tick does not meet a gap. No item has been sent eight times, and either the state
has a case in `_timerTick` or nothing is overdue; or the connection is to be reset, and
the state has a case, or is TIME_WAIT at its end, and `onclose` is not set. -/
def Served (now : Nat) (s : TCPSocket) : Prop :=
  if s.BelowLimit then s.state.ticks ∨ s.overdueItems now = []
  else s.onclose = false ∧
    (s.state.ticks ∨ (s.state = .timeWait ∧ now > s.timeWaitTime + 2 * mslTime))

instance (now : Nat) (s : TCPSocket) : Decidable (s.Served now) :=
  inferInstanceAs (Decidable (@ite Prop _ _ _ _))

instance (s : TCPSocket) (input : Input) : Decidable (s.Waits input) :=
  inferInstanceAs (Decidable (_ ∧ _ ∧ _ ∧ _))

/-! ## What is transmitted -/

/-- Below the limit the loop sends the due items, in order. -/
theorem sendLoop_transmits (now : Nat) (items : List TransmitItem) (s : TCPSocket)
    (below : ∀ item ∈ items, item.retransmits ≤ 7) :
    (sendLoop now items s).2.2.events =
      s.events ++ (items.filter (TransmitItem.due now)).map s.retransmission := by
  induction items generalizing s with
  | nil => simp [sendLoop]
  | cons item items ih =>
      have here : ¬ item.retransmits > 7 := Nat.not_lt.mpr (below item List.mem_cons_self)
      have rest := fun other member => below other (List.mem_cons_of_mem item member)
      by_cases due : item.due now
      · simp only [sendLoop, here, due, ↓reduceIte, List.filter_cons_of_pos]
        rw [ih _ rest]
        simp [transmit, emit, retransmission]
      · simp only [sendLoop, here, due, ↓reduceIte, Bool.false_eq_true]
        rw [ih s rest, List.filter_cons_of_neg due]

/-- `_sendTransmitQueue` sends the overdue items. -/
theorem sendTransmitQueue_sublist (now : Nat) {s : TCPSocket} (below : s.BelowLimit) :
    ∃ events, (s.sendTransmitQueue now).events = s.events ++ events ∧
      ((s.overdueItems now).map s.retransmission).Sublist events := by
  have sent := sendLoop_transmits now s.transmitQueue s below
  obtain ⟨packets, ack, -, -, -, stops, -⟩ := sendLoop_spec now s.transmitQueue s
  have running : (sendLoop now s.transmitQueue s).1 = false := by
    rw [Bool.eq_false_iff]
    intro stopped
    obtain ⟨item, member, limit⟩ := stops.mp stopped
    have := below item member
    omega
  have due : ((s.overdueItems now).map s.retransmission).Sublist
      ((s.transmitQueue.filter (TransmitItem.due now)).map s.retransmission) :=
    (List.monotone_filter_right s.transmitQueue fun _ => TransmitItem.due_of_overdue).map _
  unfold sendTransmitQueue
  generalize sendLoop now s.transmitQueue s = result at sent running
  obtain ⟨reset, items, t⟩ := result
  dsimp only at sent running ⊢
  rw [running, if_neg Bool.false_ne_true]
  split
  · refine ⟨_ ++ [.transmit t.transmitPosition t.receiveWindowEdge flagACK t.receiveWindowSize none],
      ?_, due.trans (List.sublist_append_left _ _)⟩
    rw [← List.append_assoc, ← sent]
    rfl
  · exact ⟨_, sent, due⟩

/-- Where the queue is sent, only a reset misses something: it does not tell the owner. -/
theorem sendTransmitQueue_retransmits_iff (now : Nat) (s : TCPSocket) :
    Retransmits now s (s.sendTransmitQueue now) ↔ (s.BelowLimit ∨ s.onclose = false) := by
  by_cases below : s.BelowLimit
  · obtain ⟨events, record, sent⟩ := sendTransmitQueue_sublist now below
    exact ⟨fun _ => .inl below, fun _ => ⟨events, record, fun _ => sent, fun limit =>
      absurd below limit⟩⟩
  · obtain ⟨packets, ack, transmits, after⟩ := sendTransmitQueue_of_limit now below
    have silent : .onclose ∉ packets ++ [.destroy] := by
      intro member
      rcases List.mem_append.mp member with member | member
      · exact Bool.noConfusion (transmits _ member)
      · cases List.mem_singleton.mp member
    rw [after]
    constructor
    · rintro ⟨events, record, -, reset⟩
      have same : packets ++ [.destroy] = events := by
        rw [List.append_assoc] at record
        exact List.append_cancel_left record
      refine .inr (Bool.eq_false_iff.mpr fun set => ?_)
      exact silent (same ▸ (reset below).2.2 set)
    · intro unset
      have unset : s.onclose = false := unset.resolve_left below
      refine ⟨packets ++ [.destroy], List.append_assoc .., fun all => absurd all below,
        fun _ => ⟨rfl, by simp, fun set => ?_⟩⟩
      rw [unset] at set
      cases set

/-- Where nothing is done, nothing may be overdue. -/
theorem retransmits_self_iff (now : Nat) (s : TCPSocket) (opened : s.state ≠ .closed) :
    Retransmits now s s ↔ (s.BelowLimit ∧ s.overdueItems now = []) := by
  constructor
  · rintro ⟨events, record, sent, reset⟩
    have none_ : events = [] := List.append_right_eq_self.mp record.symm
    by_cases below : s.BelowLimit
    · refine ⟨below, ?_⟩
      have empty := sent below
      rw [none_, List.sublist_nil, List.map_eq_nil_iff] at empty
      exact empty
    · exact absurd (reset below).1 opened
  · rintro ⟨below, nothing⟩
    refine ⟨[], (List.append_nil _).symm, fun _ => ?_, fun limit => absurd below limit⟩
    rw [nothing]
    exact .slnil

/-- At the end of TIME_WAIT the connection is closed, and nothing is sent. -/
theorem retransmits_destroy_iff (now : Nat) (s : TCPSocket) :
    Retransmits now s (s.setState .closed).destroy ↔
      if s.BelowLimit then s.overdueItems now = [] else s.onclose = false := by
  have record : (s.setState .closed).destroy.events = s.events ++ [.destroy] := rfl
  constructor
  · rintro ⟨events, record', sent, reset⟩
    have same : [.destroy] = events := List.append_cancel_left (record.symm.trans record')
    subst same
    split
    · next below =>
        cases items : s.overdueItems now with
        | nil => rfl
        | cons item later =>
            have first := (sent below).subset (by rw [items]; exact List.mem_cons_self)
            cases List.mem_singleton.mp first
    · next limit =>
        refine Bool.eq_false_iff.mpr fun set => ?_
        cases List.mem_singleton.mp ((reset limit).2.2 set)
  · intro condition
    refine ⟨[.destroy], record, fun below => ?_, fun limit => ⟨rfl, by simp, fun set => ?_⟩⟩
    · rw [if_pos below] at condition
      rw [condition]
      exact List.nil_sublist _
    · rw [if_neg limit, set] at condition
      cases condition

/-! ## One tick -/

/-- **One tick.** -/
theorem timerTick_retransmits_iff (env : Env) {s : TCPSocket}
    (routed : (s.configure env).1 = true) (opened : s.state ≠ .closed) :
    Retransmits env.now s (s.timerTick env) ↔ s.Served env.now := by
  have configured : Retransmits env.now s (s.sendConfigured env) ↔
      (s.BelowLimit ∨ s.onclose = false) := by
    obtain ⟨port, intf, viaIP, after⟩ := configure_eq env s
    unfold sendConfigured
    rw [if_pos routed, after]
    exact sendTransmitQueue_retransmits_iff env.now { s with port, intf, viaIP }
  have served (ticks : s.state.ticks = true) :
      (s.BelowLimit ∨ s.onclose = false) ↔ s.Served env.now := by
    unfold Served
    rw [ticks]
    by_cases below : s.BelowLimit
    · simp [below]
    · simp [below]
  have idle (quiet : s.state.ticks = false) (other : s.state ≠ .timeWait) :
      Retransmits env.now s s ↔ s.Served env.now := by
    rw [retransmits_self_iff _ _ opened]
    unfold Served
    rw [quiet]
    by_cases below : s.BelowLimit
    · simp [below]
    · simp [below, other]
  cases state : s.state with
  | synSent | synReceived =>
      have tick : s.timerTick env = s.sendConfigured env := by
        rcases timerTick_cases env s with ⟨other, -⟩ | ⟨-, tick⟩ | ⟨other, -⟩ | ⟨calls, answers, -⟩
        · rw [state] at other
          cases other
        · exact tick
        · rw [state] at other
          rcases other with other | other <;> cases other
        · rw [state] at calls answers
          contradiction
      rw [tick, configured]
      exact served (by rw [state]; rfl)
  | established | finWait1 =>
      have tick : s.timerTick env = s.sendTransmitQueue env.now := by
        unfold timerTick
        rw [state]
      rw [tick, sendTransmitQueue_retransmits_iff]
      exact served (by rw [state]; rfl)
  | timeWait =>
      have tick : s.timerTick env = if env.now > s.timeWaitTime + 2 * mslTime then
          (s.setState .closed).destroy else s := by
        unfold timerTick
        rw [state]
      rw [tick]
      unfold Served
      rw [state]
      split
      · next elapsed =>
          rw [retransmits_destroy_iff]
          by_cases below : s.BelowLimit
          · simp [below, State.ticks]
          · simp [below, elapsed]
      · next waiting =>
          rw [retransmits_self_iff _ _ opened]
          by_cases below : s.BelowLimit
          · simp [below, State.ticks]
          · simp [below, State.ticks, waiting]
  | closed => exact absurd state opened
  | listen | finWait2 | closeWait | closing | lastAck =>
      have tick : s.timerTick env = s := by
        unfold timerTick
        rw [state]
      rw [tick]
      exact idle (by rw [state]; rfl) (by rw [state]; decide)

/-! ## Whole runs -/

theorem step_timerTick {s : TCPSocket} {input : Input} (tick : input.op.isTick) :
    s.step input = s.timerTick input.env := by
  unfold step
  cases op : input.op with
  | timerTick => rfl
  | send | halfclose | close | receive =>
      rw [op] at tick
      cases tick

/-- A run retransmits at every tick exactly if its ticks are served. -/
theorem along_retransmits_iff (s : TCPSocket) (inputs : List Input) :
    Along step (fun s input => s.Waits input → Retransmits input.env.now s (s.step input))
        s inputs ↔
      Along step (fun s input => s.Waits input → s.Served input.env.now) s inputs := by
  have any : Along step (fun _ _ => True) s inputs := .of_inputs fun _ _ => trivial
  refine Along.iff_of_invariant (fun _ => True) (fun s input _ _ => ?_) (fun _ _ _ _ _ => trivial)
    any trivial
  refine forall_congr' fun waits => ?_
  obtain ⟨tick, routed, opened, -⟩ := waits
  rw [step_timerTick tick]
  exact timerTick_retransmits_iff input.env routed opened

/-- **Retransmission over whole runs.** In a run of a connection every tick of an open
socket with a route and items in flight sends the overdue items again, or resets the
connection and tells its owner, exactly if no such tick meets a gap. -/
theorem retransmission_exact (s : TCPSocket) (inputs : List Input) :
    Along step (fun s input => s.Waits input → Retransmits input.env.now s (s.step input))
        s inputs ↔
      Along step (fun s input => s.Waits input → s.Served input.env.now) s inputs :=
  along_retransmits_iff s inputs

/-- The peer has closed its side, so the socket is in CLOSE_WAIT; three bytes sent then are
lost on the way, and no tick sends them again. -/
theorem retransmission_missing_in_closeWait :
    ¬ ∀ (iss : Seq) (s : TCPSocket), Started iss s → ∀ inputs : List Input,
      Along step (fun s input => s.Waits input → Retransmits input.env.now s (s.step input))
        s inputs := by
  intro claim
  have along := claim 19999 dialled dialled_started
    [⟨direct 1, .receive (.ofData (flagSYN ||| flagACK) 4999 20000 8192 [])⟩,
      ⟨direct 2, .receive (.ofData (flagFIN ||| flagACK) 5000 20000 8192 [])⟩,
      ⟨direct 3, .send [1, 2, 3]⟩, ⟨direct 5000, .timerTick⟩]
  exact absurd ((along_retransmits_iff dialled _).mp along) (by decide)

/-- The same bytes sent before the peer closes are sent again. -/
theorem retransmission_exact_established :
    Along step (fun s input => s.Waits input → Retransmits input.env.now s (s.step input)) dialled
      [⟨direct 1, .receive (.ofData (flagSYN ||| flagACK) 4999 20000 8192 [])⟩,
        ⟨direct 2, .send [1, 2, 3]⟩, ⟨direct 5000, .timerTick⟩] :=
  (retransmission_exact dialled _).mpr (by decide)

end TCPSocket

end JsOS.Net.Tcp
