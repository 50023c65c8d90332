import FeedCapture.Passage
import FeedCapture.Proofs.Worker.Transition

/-!
# Faithful connections

A worker reads what the peer sent, piece by piece, and puts every piece on the bus before it reads
the next one.  So what is on the bus is at all times the start of what the peer sent, and at most
the last piece is missing from it.

## Main definitions

* `Passage.Faithful` — what is on the bus of a connection is what the peer sent
* `Passage.Open` — the same of a connection that is read from, with what is still to be read
-/

namespace FeedCapture

open Transport

/-! ## Peers and reads -/

/-- A peer takes nothing back. -/
theorem Transport.bytesBy_mono {s t : Instant} (h : s ≤ t) (acts : List (Instant × Peer)) :
    bytesBy s acts <+: bytesBy t acts := by
  induction acts with
  | nil => exact List.prefix_refl _
  | cons act acts ih =>
    obtain ⟨due, act⟩ := act
    by_cases hs : due ≤ s
    · have ht : due ≤ t := Nat.le_trans hs h
      cases act with
      | sends data =>
        simp only [bytesBy, hs, ht, if_true]
        split
        · exact List.prefix_refl _
        · exact (List.prefix_append_right_inj data).2 ih
      | _ => simp [bytesBy]
    · simp [bytesBy, hs]

namespace Connection

variable {c c' : Connection} {now : Instant} {room : Nat}

/-- Where nothing can be read, all that was sent has been read. -/
theorem bytesBy_of_read?_eq_none (h : c.read? now room = none) : bytesBy now c.incoming = [] := by
  obtain ⟨_ | ⟨⟨due, act⟩, rest⟩⟩ := c
  · rfl
  · by_cases early : now < due
    · have : ¬due ≤ now := Nat.not_le.2 early
      simp [bytesBy, this]
    · cases act with
      | sends sent =>
        simp only [read?, early, if_false] at h
        split at h
        · cases h
        · split at h <;> cases h
      | _ => simp [read?, early] at h

/-- A read that gets data takes some bytes, as many as there is room for, from the start of what the
peer sent. -/
theorem bytesBy_of_read?_data {data : Bytes} (h : c.read? now room = some (.data data, c')) :
    data ≠ [] ∧ data.length ≤ room ∧
      ∀ t, now ≤ t → bytesBy t c.incoming = data ++ bytesBy t c'.incoming := by
  obtain ⟨_ | ⟨⟨due, act⟩, rest⟩⟩ := c
  · cases h
  · by_cases early : now < due
    · simp [read?, early] at h
    · have late : due ≤ now := Nat.le_of_not_lt early
      cases act with
      | sends sent =>
        simp only [read?, early, if_false] at h
        split at h
        · cases h
        · next taken =>
          have some : sent ≠ [] := fun none => taken (by simp [none])
          split at h
          · next fits =>
            cases h
            refine ⟨by simpa using taken, List.length_take_le _ _, fun t ht => ?_⟩
            simp [bytesBy, Nat.le_trans late ht, some, List.take_of_length_le fits]
          · next exceeds =>
            cases h
            have left : sent.drop room ≠ [] := by simpa using Nat.lt_of_not_le exceeds
            refine ⟨by simpa using taken, List.length_take_le _ _, fun t ht => ?_⟩
            simp only [bytesBy, Nat.le_trans late ht, if_true, List.isEmpty_iff, some, left,
              if_false]
            rw [← List.append_assoc, List.take_append_drop]
      | _ => simp [read?, early] at h

/-- A read that gets no data comes to the end of what the peer sends. -/
theorem bytesBy_of_read?_other {result : ReadResult} (pos : 0 < room)
    (h : c.read? now room = some (result, c')) (other : ∀ data, result ≠ .data data)
    (t : Instant) : bytesBy t c.incoming = [] := by
  obtain ⟨_ | ⟨⟨due, act⟩, rest⟩⟩ := c
  · cases h
  · by_cases early : now < due
    · simp [read?, early] at h
    · cases act with
      | sends sent =>
        simp only [read?, early, if_false] at h
        split at h
        · next nothing =>
          have none : sent = [] := by
            cases sent with
            | nil => rfl
            | cons b bs =>
              obtain ⟨n, rfl⟩ := Nat.exists_eq_succ_of_ne_zero (Nat.pos_iff_ne_zero.1 pos)
              simp at nothing
          simp [bytesBy, none]
        · split at h
          · cases h
            exact absurd rfl (other _)
          · cases h
            exact absurd rfl (other _)
      | _ => simp [bytesBy]

end Connection

/-! ## Faithful connections -/

namespace Passage

/-- A message of a connection that is taken off it but not on the bus: the worker still holds it, or
its delivery was stopped or found nobody who receives. -/
inductive Missing (p : Passage) (inHand : Option Message) (m : Message) : Prop
  | held (reading : p.ending = none) (hand : inHand = some m) (none : p.undelivered = [])
  | stopped (only : p.undelivered = [(m, .stopped)])
      (closed : ∃ t, p.ending = some (t, .closed))
  | unwanted (only : p.undelivered = [(m, .closed)])
      (closed : ∃ t, p.ending = some (t, .busClosed))

/-- What is on the bus of a connection is what the peer sent. -/
structure Faithful (room : Nat) (now : Instant) (inHand : Option Message) (p : Passage) :
    Prop where
  /-- Every message holds the bytes of one read. -/
  chunks : ∀ m ∈ p.queued, m.data ≠ [] ∧ m.data.length ≤ room
  /-- The messages are the start of what the peer sent. -/
  sent : p.queuedBytes <+: p.sentBy now
  /-- At most the last read is missing from the bus. -/
  taken : p.reads = p.queued.map (·.data) ∧ p.undelivered = [] ∨
    ∃ m, p.reads = p.queued.map (·.data) ++ [m.data] ∧ p.Missing inHand m
  /-- Nothing is missing when the reading ended because of the peer. -/
  complete : ∀ t r, p.ending = some (t, r) → r.byPeer = true → p.queuedBytes = p.sentBy t

/-- A connection that a worker reads from, with the messages that it holds. -/
structure Open (room : Nat) (now : Instant) (link : Worker.Link) (held : List Message)
    (p : Passage) : Prop where
  reading : p.ending = none
  none : p.undelivered = []
  reads : p.reads = (p.queued ++ held).map (·.data)
  chunks : ∀ m ∈ p.queued ++ held, m.data ≠ [] ∧ m.data.length ≤ room
  /-- What was read and what is still to be read make up what the peer sends. -/
  stream : ∀ t, now ≤ t → p.reads.flatten ++ bytesBy t link.connection.incoming = p.sentBy t

variable {room : Nat} {now : Instant} {link : Worker.Link} {held : List Message} {p : Passage}

theorem flatten_reads (h : p.Open room now link held) :
    p.reads.flatten = p.queuedBytes ++ held.flatMap (·.data) := by
  rw [h.reads, List.map_append, List.flatten_append]
  rfl

theorem Open.sent (h : p.Open room now link held) : p.queuedBytes <+: p.sentBy now := by
  rw [← h.stream now (Nat.le_refl now), flatten_reads h, List.append_assoc]
  exact List.prefix_append _ _

/-- A connection that is read from is faithful as long as nothing is held. -/
theorem Open.faithful (h : p.Open room now link []) : p.Faithful room now Option.none where
  chunks := by simpa using h.chunks
  sent := h.sent
  taken := .inl ⟨by simpa using h.reads, h.none⟩
  complete t r ended := by simp [h.reading] at ended

theorem Open.faithful_of_held {m : Message} (h : p.Open room now link [m]) :
    p.Faithful room now (some m) where
  chunks n hn := h.chunks n (List.mem_append_left _ hn)
  sent := h.sent
  taken := .inr ⟨m, by simpa using h.reads, .held h.reading rfl h.none⟩
  complete t r ended := by simp [h.reading] at ended

/-- A connection is faithful when the worker stops reading from it; where that is because of the
peer, all that was sent must have been read. -/
theorem Open.faithful_of_ending (h : p.Open room now link []) (reason : ReadExit)
    (all : reason.byPeer = true → bytesBy now link.connection.incoming = []) :
    Faithful room now Option.none { p with ending := some (now, reason) } where
  chunks := by simpa using h.chunks
  sent := h.sent
  taken := .inl ⟨by simpa using h.reads, h.none⟩
  complete t r ended byPeer := by
    obtain ⟨rfl, rfl⟩ : now = t ∧ reason = r := by simpa using ended
    have stream := h.stream now (Nat.le_refl now)
    rw [flatten_reads h, all byPeer] at stream
    show p.queuedBytes = p.sentBy now
    simpa using stream

/-- A connection is faithful when its last message does not get onto the bus. -/
theorem Open.faithful_of_missing {m : Message} (h : p.Open room now link [m]) {d : Delivery}
    {reason : ReadExit}
    (why : d = .stopped ∧ reason = .closed ∨ d = .closed ∧ reason = .busClosed) :
    Faithful room now Option.none
      { p with undelivered := p.undelivered ++ [(m, d)], ending := some (now, reason) } where
  chunks n hn := h.chunks n (List.mem_append_left _ hn)
  sent := h.sent
  taken := by
    refine .inr ⟨m, by simpa using h.reads, ?_⟩
    rcases why with ⟨rfl, rfl⟩ | ⟨rfl, rfl⟩
    · exact .stopped (by simp [h.none]) ⟨now, rfl⟩
    · exact .unwanted (by simp [h.none]) ⟨now, rfl⟩
  complete t r ended byPeer := by
    obtain ⟨rfl, rfl⟩ : now = t ∧ reason = r := by simpa using ended
    rcases why with ⟨-, rfl⟩ | ⟨-, rfl⟩ <;> cases byPeer

theorem Faithful.later {inHand : Option Message} (h : p.Faithful room now inHand) {t : Instant}
    (ht : now ≤ t) : p.Faithful room t inHand :=
  ⟨h.chunks, h.sent.trans (bytesBy_mono ht _), h.taken, h.complete⟩

theorem Open.later (h : p.Open room now link held) {t : Instant} (ht : now ≤ t) :
    p.Open room t link held :=
  ⟨h.reading, h.none, h.reads, h.chunks, fun u hu => h.stream u (Nat.le_trans ht hu)⟩

/-- Nothing was read from a connection that has just been opened. -/
theorem open_new (room : Nat) (now : Instant) (peer : List (Duration × Peer)) (close : Token)
    (lastMessage : Instant) :
    Open room now ⟨Connection.opened now peer, close, lastMessage⟩ [] { opened := now, peer } :=
  ⟨rfl, rfl, rfl, by simp, fun _ _ => rfl⟩

/-- What is read is held. -/
theorem Open.read (h : p.Open room now link []) {m : Message} {c : Connection} {h' : Hub}
    (read : link.connection.read? now room = some (.data m.data, c)) :
    Open room now (link.readNow h' c) [m] { p with reads := p.reads ++ [m.data] } := by
  obtain ⟨some, fits, stream⟩ := Connection.bytesBy_of_read?_data read
  refine ⟨h.reading, h.none, ?_, ?_, fun t ht => ?_⟩
  · have reads := h.reads
    simp only [List.append_nil] at reads
    simp [reads]
  · intro n hn
    rcases List.mem_append.1 hn with hn | hn
    · exact h.chunks n (List.mem_append_left _ hn)
    · rw [List.mem_singleton.1 hn]
      exact ⟨some, fits⟩
  · have before := h.stream t ht
    rw [stream t ht] at before
    show (p.reads ++ [m.data]).flatten ++ bytesBy t c.incoming = p.sentBy t
    simpa using before

/-- What is held is put on the bus. -/
theorem Open.deliver {m : Message} (h : p.Open room now link [m]) :
    Open room now link [] { p with queued := p.queued ++ [m] } :=
  ⟨h.reading, h.none, by simpa using h.reads, by simpa using h.chunks, h.stream⟩

end Passage

end FeedCapture
