import FeedCapture.Proofs.Worker.Metering

/-!
# A worker that never gets a connection

What a worker shares with one that never gets a connection: everything but the counters and the
planned dials of that one's address, which no worker of another address looks at.  Whether the bus
still has its own sender is left open too, because no worker looks at it.

## Main definitions

* `Hub.AgreesBut` — hubs that differ only in what concerns one address
* `Worker.Vain` — a worker that has no connection and gets none

The main statements say that a worker of another address takes the same step in both hubs
(`Worker.rel_step?`), and that the steps of a vain worker change only what concerns its address
(`Worker.vain_of_transition`).
-/

namespace FeedCapture

open Transport

/-! ## What concerns one address -/

/-- Counters that differ only in those of one source. -/
structure Metrics.AgreesBut (addr : String) (m m' : Metrics) : Prop where
  others : ∀ other, other ≠ addr → m'.ofSource other = m.ofSource other
  gauge : m'.activeConnections = m.activeConnections

/-- Counting an event keeps the difference to one source, whichever source the event is of. -/
theorem Metrics.AgreesBut.count {addr : String} {m m' : Metrics} (agree : m.AgreesBut addr m')
    (own : String) (e : Worker.Event) :
    (e.count own m).AgreesBut addr (e.count own m') := by
  refine ⟨fun other ne => ?_, ?_⟩
  · by_cases same : other = own
    · subst same
      exact Worker.ofSource_count_congr _ e (agree.others other ne)
    · rw [Worker.ofSource_count_of_ne _ _ e same, Worker.ofSource_count_of_ne _ _ e same]
      exact agree.others other ne
  · cases e <;> simp [Worker.Event.count, Metrics.recordDialFailure, Metrics.recordConnect,
      Metrics.recordMessage, Metrics.recordDisconnect, agree.gauge]

namespace Bus

variable {ι : Type} (b : Bus ι) (own : Bool) (id : ι) (m : Message)

/-- The same bus, with its own sender or without. -/
def withSender : Bus ι := { b with ownSender := own }

@[simp] theorem queue_withSender : (b.withSender own).queue = b.queue := rfl

theorem passOn_withSender : (b.withSender own).passOn = b.passOn.withSender own := by
  cases h : b.parked <;> simp [passOn, withSender, h]

theorem offer_withSender :
    (b.withSender own).offer m = ((b.offer m).1.withSender own, (b.offer m).2) := by
  have room : (b.withSender own).free = b.free := rfl
  have alive : (b.withSender own).receiving = b.receiving := rfl
  unfold offer
  rw [room, alive]
  split
  · rfl
  · split <;> rfl

theorem leave_withSender [DecidableEq ι] :
    (b.withSender own).leave id = (b.leave id).withSender own := by
  have granted : (b.withSender own).granted = b.granted := rfl
  unfold leave
  rw [granted]
  split
  · exact passOn_withSender { b with granted := b.granted.erase id } own
  · rfl

theorem claim_withSender [DecidableEq ι] :
    (b.withSender own).claim id m = ((b.claim id m).1.withSender own, (b.claim id m).2) := by
  have granted : (b.withSender own).granted = b.granted := rfl
  have alive : (b.withSender own).receiving = b.receiving := rfl
  unfold claim
  rw [granted, alive]
  split
  · rfl
  · split <;> rfl

theorem take?_withSender : (b.withSender own).take? =
    b.take?.map fun taken => (taken.1, taken.2.withSender own) := by
  unfold take?
  rw [queue_withSender]
  cases b.queue with
  | nil => rfl
  | cons m rest =>
    exact congrArg (fun b => some (m, b)) (passOn_withSender { b with queue := rest } own)

end Bus

/-- A hub with another bus's own sender, other counters and other plans. -/
def Hub.vary (h : Hub) (own : Bool) (metrics : Metrics) (network : Network) : Hub :=
  { h with bus := h.bus.withSender own, metrics, network }

/-- Hubs that differ only in what concerns one address, and in the bus's own sender. -/
inductive Hub.AgreesBut (addr : String) (h : Hub) : Hub → Prop
  | vary (own : Bool) {metrics : Metrics} {network : Network}
      (counted : h.metrics.AgreesBut addr metrics)
      (planned : ∀ other, other ≠ addr → network.plan other = h.network.plan other) :
      AgreesBut addr h (h.vary own metrics network)

namespace Hub.AgreesBut

variable {addr : String} {h h' h'' : Hub}

theorem refl (addr : String) (h : Hub) : h.AgreesBut addr h :=
  .vary (h := h) h.bus.ownSender ⟨fun _ _ => rfl, rfl⟩ fun _ _ => rfl

theorem trans (first : h.AgreesBut addr h') (rest : h'.AgreesBut addr h'') :
    h.AgreesBut addr h'' := by
  cases first with
  | vary own counted planned =>
    cases rest with
    | vary own' counted' planned' =>
      exact .vary (h := h) own'
        ⟨fun other ne => (counted'.others other ne).trans (counted.others other ne),
          counted'.gauge.trans counted.gauge⟩
        fun other ne => (planned' other ne).trans (planned other ne)

theorem symm (agree : h.AgreesBut addr h') : h'.AgreesBut addr h := by
  cases agree with
  | vary own counted planned =>
    exact .vary (h := h.vary own _ _) h.bus.ownSender
      ⟨fun other ne => (counted.others other ne).symm, counted.gauge.symm⟩
      fun other ne => (planned other ne).symm

/-- What both hubs have in common. -/
structure Common (addr : String) (h h' : Hub) : Prop where
  policy : h'.policy = h.policy
  now : h'.now = h.now
  tokens : h'.tokens = h.tokens
  stop : h'.stop = h.stop
  stopping : h'.stopping = h.stopping
  registry : h'.registry = h.registry
  bus : h'.bus = h.bus.withSender h'.bus.ownSender
  metrics : h.metrics.AgreesBut addr h'.metrics

theorem common (agree : h.AgreesBut addr h') : Common addr h h' := by
  cases agree with
  | vary own counted planned => exact ⟨rfl, rfl, rfl, rfl, rfl, rfl, rfl, counted⟩

/-- An event is counted in both. -/
theorem count (agree : h.AgreesBut addr h') (own : String) (e : Worker.Event) :
    (h.count fun m => e.count own m).AgreesBut addr (h'.count fun m => e.count own m) := by
  cases agree with
  | @vary sender metrics network counted planned =>
    have counting : (h.vary sender metrics network).counting = h.counting := rfl
    unfold Hub.count
    rw [counting]
    split
    · exact .vary (h := { h with metrics := e.count own h.metrics }) sender (counted.count own e)
        planned
    · exact .vary sender counted planned

end Hub.AgreesBut

namespace Worker

variable {addr : String} {h h' : Hub} {w : Worker}

/-! ## Workers of other addresses -/

/-- Steps that differ only in what concerns one address. -/
structure Step.AgreesBut (addr : String) (s s' : Step) : Prop where
  hub : s.hub.AgreesBut addr s'.hub
  worker : s'.worker = s.worker
  events : s'.events = s.events

theorem Step.AgreesBut.after {s s' : Step} (agree : s.AgreesBut addr s') (e : Event) :
    (s.after e).AgreesBut addr (s'.after e) :=
  ⟨agree.hub, agree.worker, congrArg (e :: ·) agree.events⟩

section

variable (agree : h.AgreesBut addr h')

include agree

theorem agreesBut_stop (w : Worker) : (stop h w).AgreesBut addr (stop h' w) :=
  ⟨agree, rfl, rfl⟩

theorem agreesBut_begin (ne : w.key.addr ≠ addr) :
    (begin h w).AgreesBut addr (begin h' w) := by
  unfold begin
  rw [agree.common.stopping]
  split
  · exact agreesBut_stop agree w
  · cases agree with
    | @vary own metrics network counted planned =>
      have dialed : ((h.vary own metrics network).network.dial w.key.addr).1 =
          (h.network.dial w.key.addr).1 := by
        rw [Network.dial_fst, Network.dial_fst, ← planned _ ne]
        rfl
      dsimp only
      rw [dialed]
      refine ⟨.vary (h := { h with network := (h.network.dial w.key.addr).2 }) own counted
        fun other other_ne => ?_, rfl, rfl⟩
      by_cases same : other = w.key.addr
      · rw [same, Network.plan_dial_self, Network.plan_dial_self, ← planned _ ne]
        rfl
      · rw [Network.plan_dial_of_ne _ _ same, Network.plan_dial_of_ne _ _ same]
        exact planned other other_ne

theorem agreesBut_failDial (w : Worker) (e : Failure) :
    (failDial h w e).AgreesBut addr (failDial h' w e) := by
  have hub := agree.count w.key.addr (.dialFailed e 0 0)
  cases agree with
  | vary own counted planned => exact ⟨hub, rfl, rfl⟩

theorem agreesBut_connect (w : Worker) (peer : List (Duration × Peer)) (tuning : Option Tuning) :
    (connect h w peer tuning).AgreesBut addr (connect h' w peer tuning) := by
  cases agree with
  | vary own counted planned =>
    let entry := h.registry.register (h.tokens.child h.stop).1 w.key (h.tokens.child h.stop).2
    have hub := (Hub.AgreesBut.vary (h := { h with tokens := entry.2.1, registry := entry.1 }) own
      counted planned).count w.key.addr (.connected .first)
    refine ⟨hub, ?_, ?_⟩
    all_goals
      simp only [connect, Hub.frame_count]
      rfl

theorem agreesBut_leave (w : Worker) (reason : ReadExit) :
    (leave h w reason).AgreesBut addr (leave h' w reason) := by
  cases agree with
  | @vary own metrics network counted planned =>
    have hub := (Hub.AgreesBut.vary
      (h := { h with registry := (h.registry.unregister w.key).1 }) own counted planned).count
        w.key.addr (.exited reason)
    have registry : (h.vary own metrics network).registry = h.registry := rfl
    unfold leave
    dsimp only
    split
    · refine ⟨hub, ?_, ?_⟩
      · simp only [stop, Hub.frame_count]
        rfl
      · simp only [stop, registry]
    · refine ⟨hub, ?_, ?_⟩
      · simp only [Hub.frame_count]
        rfl
      · simp only [registry]

theorem agreesBut_crash (w : Worker) (reason : String) :
    (crash h w reason).AgreesBut addr (crash h' w reason) := by
  cases agree with
  | @vary own metrics network counted planned =>
    have registry : (h.vary own metrics network).registry = h.registry := rfl
    unfold crash
    rw [registry]
    exact ⟨.vary (h := { h with
      registry := (if w.isConnected then h.registry.unregister w.key else (h.registry, [])).1 })
        own counted planned, rfl, rfl⟩

theorem agreesBut_delivered (w : Worker) (link : Link) (m : Message) :
    (delivered h w link m).AgreesBut addr (delivered h' w link m) := by
  have hub := agree.count w.key.addr (.delivered m)
  cases agree with
  | vary own counted planned => exact ⟨hub, rfl, rfl⟩

theorem agreesBut_deliver (w : Worker) (link : Link) (data : Bytes) :
    (deliver h w link data).AgreesBut addr (deliver h' w link data) := by
  cases agree with
  | @vary own metrics network counted planned =>
    have offer := h.bus.offer_withSender own (w.message h data)
    have now : (h.vary own metrics network).wallClock = h.wallClock := rfl
    have bus : (h.vary own metrics network).bus = h.bus.withSender own := rfl
    unfold deliver
    simp only [message] at offer
    simp only [now, bus, offer]
    rcases h.bus.offer _ with ⟨bus, _ | _ | _⟩
    · exact agreesBut_delivered (.vary (h := { h with bus }) own counted planned) w link _
    · exact ⟨.vary (h := { h with bus := bus.park w.key.slot }) own counted planned, rfl, rfl⟩
    · exact (agreesBut_leave (.vary own counted planned) w .busClosed).after _

theorem agreesBut_received (w : Worker) (link : Link) (result : Connection.ReadResult) :
    (received h w link result).AgreesBut addr (received h' w link result) := by
  cases result with
  | data bytes =>
    have deliver := agreesBut_deliver agree w { link with lastMessage := h.now } bytes
    simp only [received, agree.common.now]
    exact deliver
  | ended => exact agreesBut_leave agree w .eof
  | failed e => exact agreesBut_leave agree w (.failed e)
  | brokeDown reason => exact agreesBut_crash agree w reason

theorem agreesBut_timeOut (w : Worker) (link : Link) :
    (timeOut h w link).AgreesBut addr (timeOut h' w link) := by
  unfold timeOut
  simp only [readOn, agree.common.now, agree.common.policy]
  split
  · exact agreesBut_leave agree w _
  · exact ⟨agree, rfl, rfl⟩

theorem agreesBut_dialEnded (w : Worker) (outcome : Outcome) :
    (dialEnded h w outcome).AgreesBut addr (dialEnded h' w outcome) := by
  cases outcome with
  | refused e => exact agreesBut_failDial agree w e
  | breaksDown reason => exact agreesBut_crash agree w reason
  | connected peer tuning => exact agreesBut_connect agree w peer tuning

/-- A worker of another address takes the same step in both hubs, or in neither. -/
theorem rel_step? (ne : w.key.addr ≠ addr) :
    Option.Rel (Step.AgreesBut addr) (w.step? h) (w.step? h') := by
  have common := agree.common
  cases phase : w.phase with
  | ready =>
    simp only [step?, phase]
    exact .some (agreesBut_begin agree ne)
  | dialing due outcome =>
    simp only [step?, phase, common.stopping, common.now]
    split
    · exact .some (agreesBut_stop agree w)
    · cases due with
      | none => exact .none
      | some due =>
        dsimp only
        split
        · exact .some ((agreesBut_dialEnded agree w outcome).after _)
        · exact .none
  | pausing until_ =>
    simp only [step?, phase, common.stopping, common.now]
    split
    · exact .some (agreesBut_stop agree w)
    · split
      · exact .some ⟨agree, rfl, rfl⟩
      · exact .none
  | reading link deadline =>
    simp only [step?, phase, common.tokens, common.now, common.policy]
    split
    · exact .some (agreesBut_leave agree w .closed)
    · split
      · exact .some ((agreesBut_received agree w _ _).after _)
      · split
        · exact .some (agreesBut_timeOut agree w link)
        · exact .none
  | delivering link m =>
    cases agree with
    | @vary own metrics network counted planned =>
      have tokens : (h.vary own metrics network).tokens = h.tokens := rfl
      have bus : (h.vary own metrics network).bus = h.bus.withSender own := rfl
      simp only [step?, phase, tokens, bus, Bus.leave_withSender, Bus.claim_withSender]
      split
      · exact .some ((agreesBut_leave
          (.vary (h := { h with bus := h.bus.leave w.key.slot }) own counted planned) w
          .closed).after _)
      · rcases h.bus.claim w.key.slot m with ⟨bus, _ | _ | _ | _⟩
        · exact .none
        · have hub := Hub.AgreesBut.vary (h := { h with bus }) own counted planned
          exact .some (agreesBut_delivered hub w link m)
        · have hub := Hub.AgreesBut.vary (h := { h with bus }) own counted planned
          exact .some (agreesBut_delivered hub w link m)
        · have hub := Hub.AgreesBut.vary (h := { h with bus }) own counted planned
          exact .some ((agreesBut_leave hub w .busClosed).after _)
  | stopped =>
    simp only [step?, phase]
    exact .none
  | crashed reason =>
    simp only [step?, phase]
    exact .none

end

/-! ## A worker that never gets a connection -/

/-- No dial of an address leads to a connection. -/
def Unreachable (network : Network) (addr : String) : Prop :=
  ∀ delay peer tuning, .settles delay (.connected peer tuning) ∉ network.plan addr

/-- A worker that has no connection and gets none. -/
structure Vain (network : Network) (w : Worker) : Prop where
  shut : w.phase.open? = none
  dialing : ∀ due peer tuning, w.phase ≠ .dialing due (.connected peer tuning)
  planned : Unreachable network w.key.addr

/-- How many steps a worker without a connection takes before it waits, at most. -/
def urge (now : Instant) (w : Worker) : Nat :=
  match w.phase with
  | .pausing until_ => if until_ ≤ now then 4 else 1
  | .ready => 3
  | .dialing _ _ => 2
  | _ => 0

variable {s : Step}

/-- A worker that has ended is vain. -/
theorem Vain.ended {network : Network} (planned : Unreachable network w.key.addr)
    (ended : w.ended = true) : w.Vain network := by
  refine ⟨?_, fun due peer tuning phase => ?_, planned⟩
  · cases phase : w.phase <;> first | rfl | simp [Worker.ended, phase] at ended
  · simp [Worker.ended, phase] at ended

theorem Vain.congr {network network' : Network} (vain : w.Vain network)
    (same : network'.plan w.key.addr = network.plan w.key.addr) : w.Vain network' := by
  refine ⟨vain.shut, vain.dialing, ?_⟩
  rw [Unreachable, same]
  exact vain.planned

/-- The next dial of an address that cannot be reached leads to no connection, and no later one
does. -/
theorem Unreachable.dial {network : Network} {own : String} (planned : Unreachable network own) :
    (∀ delay peer tuning, (network.dial own).1 ≠ .settles delay (.connected peer tuning)) ∧
      Unreachable (network.dial own).2 own := by
  refine ⟨fun delay peer tuning same => ?_, fun delay peer tuning mem => ?_⟩
  · rw [Network.dial_fst] at same
    cases plan : network.plan own with
    | nil =>
      rw [plan] at same
      cases same
    | cons next rest =>
      rw [plan] at same
      refine planned delay peer tuning ?_
      rw [plan, ← same]
      exact List.mem_cons_self
  · rw [Network.plan_dial_self] at mem
    exact planned delay peer tuning (List.mem_of_mem_tail mem)

/-- The steps of a vain worker change only what concerns its address, and it stays vain.  It takes
finitely many steps in a row, if it pauses after a failed dial or is to stop. -/
theorem vain_of_transition (step : Transition h w s) (vain : w.Vain h.network) :
    s.worker.Vain s.hub.network ∧ h.AgreesBut w.key.addr s.hub ∧
      (0 < h.policy.reconnectDelay ∨ h.stopping = true →
        s.worker.urge h.now < w.urge h.now) := by
  have unlinked : ∀ {link : Link} {p : Prop}, w.phase.open? = some link → p := by
    intro link p open_
    rw [vain.shut] at open_
    cases open_
  cases step with
  | halt idle stopping =>
    refine ⟨.ended vain.planned rfl, .refl _ h, fun _ => ?_⟩
    show 0 < w.urge h.now
    rcases idle with phase | ⟨due, outcome, phase⟩ | ⟨until_, phase⟩
    · simp [urge, phase]
    · simp [urge, phase]
    · simp only [urge, phase]
      split <;> decide
  | dial phase going =>
    obtain ⟨dialed, planned⟩ := vain.planned.dial
    have begun : (begin h w).hub = { h with network := (h.network.dial w.key.addr).2 } :=
      hub_begin h w going
    rw [begun]
    refine ⟨?_, .vary (h := h) h.bus.ownSender ⟨fun _ _ => rfl, rfl⟩ fun other ne =>
      Network.plan_dial_of_ne _ _ ne, fun _ => ?_⟩
    · simp only [begin, going, Bool.false_eq_true, if_false]
      cases outcome : (h.network.dial w.key.addr).1 with
      | hangs => exact ⟨rfl, fun due peer tuning same => (by cases same), planned⟩
      | settles delay outcome =>
        refine ⟨rfl, fun due peer tuning same => ?_, planned⟩
        cases same
        exact dialed _ _ _ ‹_›
    · simp only [begin, going, Bool.false_eq_true, if_false, urge, phase]
      cases (h.network.dial w.key.addr).1 <;> exact Nat.lt_succ_self 2
  | @refused due e phase going passed =>
    refine ⟨⟨rfl, fun due peer tuning same => (by cases same), ?_⟩, ?_, fun brief => ?_⟩
    · simpa [Step.after, failDial] using vain.planned
    · show h.AgreesBut w.key.addr (h.count fun m => m.recordDialFailure w.key.addr)
      unfold Hub.count
      split
      · refine .vary (h := h) h.bus.ownSender ⟨fun other ne => ?_, rfl⟩ fun _ _ => rfl
        exact ofSource_count_of_ne _ _ (.dialFailed e 0 0) ne
      · exact .refl _ h
    · have pause : ¬h.now + h.policy.reconnectDelay ≤ h.now := by
        rcases brief with brief | stopping
        · exact Nat.not_le.2 (Nat.lt_add_of_pos_right brief)
        · rw [going] at stopping
          cases stopping
      simp [urge, phase, failDial, Step.after, pause]
  | @dialBroke due reason phase going passed =>
    have unconnected : w.isConnected = false := by simp [isConnected, phase, Phase.link]
    have hub : (crash h w reason).hub = h := by simp [crash, unconnected]
    rw [hub_after, hub]
    exact ⟨.ended vain.planned rfl, .refl _ h, fun _ => by simp [urge, phase, crash, Step.after]⟩
  | connected phase going passed => exact absurd phase (vain.dialing _ _ _)
  | @retry until_ phase going passed =>
    refine ⟨⟨rfl, fun due peer tuning same => (by cases same), vain.planned⟩, .refl _ h,
      fun _ => ?_⟩
    simp [urge, phase, passed]
  | closed phase close => exact unlinked (by rw [phase]; rfl)
  | eof phase going => exact unlinked (by rw [phase]; rfl)
  | failed phase going => exact unlinked (by rw [phase]; rfl)
  | readBroke phase going => exact unlinked (by rw [phase]; rfl)
  | queued phase going => exact unlinked (by rw [phase]; rfl)
  | parked phase going => exact unlinked (by rw [phase]; rfl)
  | unwanted phase going => exact unlinked (by rw [phase]; rfl)
  | idle phase going => exact unlinked (by rw [phase]; rfl)
  | silent phase going => exact unlinked (by rw [phase]; rfl)
  | givenUp phase close => exact unlinked (by rw [phase]; rfl)
  | abandoned phase going => exact unlinked (by rw [phase]; rfl)
  | handedOver phase going => exact unlinked (by rw [phase]; rfl)

end Worker

end FeedCapture
