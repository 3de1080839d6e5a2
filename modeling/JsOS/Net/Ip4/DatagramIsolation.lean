import JsOS.Net.Ip4.Reassembly

/-! # Datagrams do not disturb each other

All queues of an interface share one map and its limit. As different datagrams have
different keys, the fragments of a datagram work on their own queue only. As long as no
fragment is refused for lack of room and no queue expires, a datagram is therefore
reassembled from its own fragments as if no others had arrived.
-/

namespace JsOS.Net.Ip4

namespace Fragments

variable {fragments fragments' : Fragments} {now : Nat} {arrival : Arrival}

/-- What a call does depends on the queue it finds only. -/
theorem addFragment_congr (same : fragments.lookup arrival.hash = fragments'.lookup arrival.hash)
    (sameQueue : fragments.queueOf now arrival = fragments'.queueOf now arrival) :
    (fragments.addFragment now arrival).2 = (fragments'.addFragment now arrival).2 ∧
      (fragments.addFragment now arrival).1.lookup arrival.hash =
        (fragments'.addFragment now arrival).1.lookup arrival.hash := by
  have sameStored : fragments.stored now arrival = fragments'.stored now arrival := by
    rw [stored, stored, sameQueue]
  have sameClosing : fragments.closing now arrival = fragments'.closing now arrival := by
    rw [closing, closing, sameStored]
  have adds := fragments.adds_addFragment now arrival
  have adds' := fragments'.adds_addFragment now arrival
  generalize fragments.addFragment now arrival = result at adds ⊢
  generalize fragments'.addFragment now arrival = result' at adds' ⊢
  cases adds with
  | ignored notStored =>
      rw [sameStored] at notStored
      cases adds' with
      | ignored => exact ⟨rfl, same⟩
      | refused isStored => cases notStored.symm.trans isStored
      | closed isStored => cases notStored.symm.trans isStored
  | refused isStored notClosing =>
      rw [sameStored] at isStored
      rw [sameClosing] at notClosing
      cases adds' with
      | ignored notStored => cases notStored.symm.trans isStored
      | refused isStored' =>
          cases isStored.symm.trans isStored'
          refine ⟨rfl, ?_⟩
          rw [AList.lookup_insert, AList.lookup_insert]
      | closed _ isClosing => cases notClosing.symm.trans isClosing
  | closed isStored isClosing _ _ closes =>
      rw [sameStored] at isStored
      rw [sameClosing] at isClosing
      cases adds' with
      | ignored notStored => cases notStored.symm.trans isStored
      | refused _ notClosing => cases notClosing.symm.trans isClosing
      | closed _ isClosing' _ _ closes' =>
          cases isClosing.symm.trans isClosing'
          cases closes with
          | waits short =>
              cases closes' with
              | waits => exact ⟨rfl, by rw [AList.lookup_insert, AList.lookup_insert]⟩
              | throws counted => exact absurd counted short
              | delivers counted => exact absurd counted short
          | throws counted failed =>
              cases closes' with
              | waits short => exact absurd counted short
              | throws _ failed' =>
                  cases failed.symm.trans failed'
                  exact ⟨rfl, by rw [AList.lookup_insert, AList.lookup_insert]⟩
              | delivers _ assembled => cases failed.symm.trans assembled
          | delivers counted assembled =>
              cases closes' with
              | waits short => exact absurd counted short
              | throws _ failed => cases failed.symm.trans assembled
              | delivers _ assembled' =>
                  cases assembled.symm.trans assembled'
                  exact ⟨rfl, by rw [AList.lookup_erase, AList.lookup_erase]⟩

/-- A call works on the queue of its own datagram only. -/
theorem lookup_addFragment_of_ne {hash : String} (other : hash ≠ arrival.hash) :
    (fragments.addFragment now arrival).1.lookup hash = fragments.lookup hash := by
  have adds := fragments.adds_addFragment now arrival
  generalize fragments.addFragment now arrival = result at adds ⊢
  cases adds with
  | ignored => rfl
  | refused => exact AList.lookup_insert_ne other
  | closed _ _ _ _ closes =>
      cases closes with
      | waits => exact AList.lookup_insert_ne other
      | throws => exact AList.lookup_insert_ne other
      | delivers =>
          exact (AList.lookup_erase_ne other).trans (AList.lookup_insert_ne other)

/-- A tick at which nothing expires does nothing. -/
theorem tick_eq_self
    (young : ∀ hash queue, fragments.lookup hash = some queue →
      now < queue.createdAt + FRAGMENT_QUEUE_MAX_AGE_MS) : fragments.tick now = fragments := by
  unfold tick
  have entries : ∀ pair ∈ fragments.entries,
      now < pair.2.createdAt + FRAGMENT_QUEUE_MAX_AGE_MS := by
    intro pair member
    exact young pair.1 pair.2 (AList.mem_lookup_iff.mpr member)
  generalize fragments.entries = pairs at entries
  induction pairs with
  | nil => rfl
  | cons pair pairs ih =>
      rw [List.forall_mem_cons] at entries
      rw [List.foldl_cons, dropExpired, if_neg (not_le.mpr entries.1)]
      exact ih entries.2

end Fragments

/-! ## Histories -/

/-- The map of an interface with what the calls of `addFragment` did, in order. -/
structure History where
  fragments : Fragments := ∅
  outcomes : List (Datagram × Outcome) := []

namespace History

open Fragments (Event)

/-- One event, with what it did. -/
def record (history : History) : Event → History
  | .arrive now arrival =>
      let result := history.fragments.addFragment now arrival
      ⟨result.1, history.outcomes ++ [(arrival.datagram, result.2)]⟩
  | .tick now => { history with fragments := history.fragments.tick now }

/-- The datagram an outcome hands to `ip4receive`. -/
def delivered : Outcome → Option Delivery
  | .ok delivery => delivery
  | .error _ => none

/-- What was delivered for a datagram, in order. -/
def deliveries (history : History) (datagram : Datagram) : List Delivery :=
  history.outcomes.filterMap fun outcome =>
    if outcome.1 = datagram then delivered outcome.2 else none

/-- The event is a fragment of the datagram. -/
def isOf (datagram : Datagram) : Event → Bool
  | .arrive _ arrival => arrival.datagram = datagram
  | .tick _ => false

/-- The event meets no limit: there is room for a fragment of a new datagram, and no queue has
expired at a tick. -/
def Unlimited (history : History) : Event → Prop
  | .arrive _ arrival => arrival.hash ∈ history.fragments ∨
      history.fragments.size < FRAGMENT_QUEUE_MAX_COUNT
  | .tick now => ∀ hash queue, history.fragments.lookup hash = some queue →
      now < queue.createdAt + FRAGMENT_QUEUE_MAX_AGE_MS

/-- The two histories agree on a datagram, and the second has no other. -/
structure Alone (datagram : Datagram) (history alone : History) : Prop where
  queue : history.fragments.lookup datagram.hash = alone.fragments.lookup datagram.hash
  only : ∀ hash ∈ alone.fragments, hash = datagram.hash
  deliveries : history.deliveries datagram = alone.deliveries datagram

variable {datagram : Datagram} {history alone : History}

theorem deliveries_append (outcomes : List (Datagram × Outcome)) (outcome : Datagram × Outcome)
    (fragments : Fragments) :
    deliveries ⟨fragments, outcomes ++ [outcome]⟩ datagram =
      deliveries ⟨fragments, outcomes⟩ datagram ++
        (if outcome.1 = datagram then delivered outcome.2 else none).toList := by
  rw [deliveries, List.filterMap_append, deliveries]
  congr 1

/-- A map with the queue of one datagram has room. -/
theorem Alone.room (related : Alone datagram history alone) :
    alone.fragments.size < FRAGMENT_QUEUE_MAX_COUNT := by
  have few : alone.fragments.size ≤ [datagram.hash].length := by
    apply alone.fragments.keys_nodup.length_le_of_subset
    intro hash member
    exact List.mem_singleton.mpr (related.only hash (AList.mem_keys.mpr member))
  exact lt_of_le_of_lt few (show 1 < 100 by decide)

/-- Keys come into the map with their own fragments only. -/
theorem mem_addFragment {fragments : Fragments} {now : Nat} {arrival : Arrival} {hash : String}
    (member : hash ∈ (fragments.addFragment now arrival).1) :
    hash = arrival.hash ∨ hash ∈ fragments := by
  by_cases own : hash = arrival.hash
  · exact .inl own
  · right
    rw [← AList.lookup_isSome] at member ⊢
    rwa [Fragments.lookup_addFragment_of_ne own] at member

/-- A fragment of the datagram does the same in both histories. -/
theorem Alone.own (related : Alone datagram history alone) {now : Nat} {arrival : Arrival}
    (unlimited : history.Unlimited (.arrive now arrival)) (own : arrival.datagram = datagram) :
    Alone datagram (history.record (.arrive now arrival)) (alone.record (.arrive now arrival)) := by
  have hash : datagram.hash = arrival.hash := by rw [← own, Arrival.hash_datagram]
  have same := related.queue
  rw [hash] at same
  have sameQueue : history.fragments.queueOf now arrival = alone.fragments.queueOf now arrival := by
    rw [Fragments.queueOf, Fragments.queueOf, ← same]
    cases known : history.fragments.lookup arrival.hash with
    | some queue => rfl
    | none =>
        have absent := AList.lookup_eq_none.mp known
        have room : history.fragments.size < FRAGMENT_QUEUE_MAX_COUNT :=
          unlimited.resolve_left absent
        dsimp only
        rw [if_neg (not_le.mpr room), if_neg (not_le.mpr related.room)]
  obtain ⟨sameOutcome, sameLookup⟩ := Fragments.addFragment_congr same sameQueue
  refine ⟨?_, ?_, ?_⟩
  · rw [hash]
    exact sameLookup
  · intro other member
    rcases mem_addFragment member with isOwn | old
    · rw [isOwn, hash]
    · exact related.only other old
  · have before := related.deliveries
    simp only [record, deliveries_append, sameOutcome]
    exact congrArg (· ++ _) before

/-- A fragment of another datagram changes nothing for this one. -/
theorem Alone.foreign (related : Alone datagram history alone) {event : Event}
    (unlimited : history.Unlimited event) (foreign : isOf datagram event = false) :
    Alone datagram (history.record event) alone := by
  cases event with
  | arrive now arrival =>
      have other : arrival.datagram ≠ datagram := of_decide_eq_false foreign
      have otherHash : datagram.hash ≠ arrival.hash := by
        rw [← Arrival.hash_datagram]
        exact fun same => other (Datagram.hash_injective same).symm
      refine ⟨?_, related.only, ?_⟩
      · exact (Fragments.lookup_addFragment_of_ne otherHash).trans related.queue
      · simp only [record, deliveries_append, if_neg other]
        exact (List.append_nil _).trans related.deliveries
  | tick now =>
      have idle := Fragments.tick_eq_self unlimited
      simp only [record, idle]
      exact related

/-- **Datagrams are isolated.** In any interleaving of fragments that meets no limit, what is
delivered for one datagram is what its fragments deliver when they are processed alone. -/
theorem datagrams_isolated (datagram : Datagram) {events : List Event}
    (unlimited : Transition.Along record Unlimited {} events) :
    (Transition.run record {} events).deliveries datagram =
      (Transition.run record {} (events.filter (isOf datagram))).deliveries datagram := by
  have start : Alone datagram {} {} := by
    refine ⟨rfl, ?_, rfl⟩
    intro hash member
    exact absurd member (AList.notMem_empty hash)
  apply Alone.deliveries
  apply Transition.run_filter_related (Alone datagram) (isOf datagram) _ _ start unlimited
  · intro history alone event related unlimited foreign
    exact related.foreign unlimited foreign
  · intro history alone event related unlimited own
    cases event with
    | arrive now arrival => exact related.own unlimited (of_decide_eq_true own)
    | tick now => cases own

/-- A fragment of another datagram between the halves of one. -/
theorem datagrams_isolated_interleaved :
    (Transition.run record {}
        [.arrive 0 (Fragments.arrival (lanFrame 7 0x20 0 [1, 2, 3, 4, 5, 6, 7, 8])),
          .arrive 1 (Fragments.arrival (lanFrame 8 0x20 0 [8, 7, 6, 5, 4, 3, 2, 1])),
          .tick 2,
          .arrive 3 (Fragments.arrival (lanFrame 7 0 1 [9, 10]))]).deliveries
        ⟨⟨10, 0, 0, 2⟩, ⟨10, 0, 0, 1⟩, 17, 7⟩ =
      (Transition.run record {}
        [.arrive 0 (Fragments.arrival (lanFrame 7 0x20 0 [1, 2, 3, 4, 5, 6, 7, 8])),
          .arrive 3 (Fragments.arrival (lanFrame 7 0 1 [9, 10]))]).deliveries
        ⟨⟨10, 0, 0, 2⟩, ⟨10, 0, 0, 1⟩, 17, 7⟩ := by
  apply datagrams_isolated
  refine ⟨.inr (by decide), .inr (by decide), ?_, .inl (by decide), trivial⟩
  intro hash queue found
  show 2 < queue.createdAt + 30000
  omega

end History

end JsOS.Net.Ip4
