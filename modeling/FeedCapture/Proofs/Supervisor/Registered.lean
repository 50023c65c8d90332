import FeedCapture.Proofs.Fleet.Alone
import FeedCapture.Proofs.Fleet.Gauge

/-!
# The registry of a supervisor

In every state that a supervisor can reach, the registry is what the workers make it: one entry for
each worker that has a connection, under its key and with the token that closes the connection.  No
entry is ever replaced, and no worker closes the connection of another one.

## Main definitions

* `Worker.Event.replaces` — an entry of the registry is replaced
* `Supervision.Told` — the tokens tell whether the workers were told to stop

The main statement is `Supervision.registered_of_run`.
-/

namespace FeedCapture

namespace Worker

open Transport

/-- An entry of the registry is replaced. -/
def Event.replaces : Event → Bool
  | .registry (.replaced _) => true
  | _ => false

variable {h : Hub} {w : Worker} {s : Step}

theorem replaces_of_plain {es : List Event} (plain : Plain es) : ∀ e ∈ es, e.replaces = false := by
  intro e he
  cases e with
  | registry notice => cases notice <;> first | rfl | cases plain _ he
  | _ => rfl

/-- A worker replaces no entry: when it has a new connection, there is none under its key. -/
theorem replaces_of_transition (step : Transition h w s) (wired : w.Wired h) :
    ∀ e ∈ s.events, e.replaces = false := by
  have after : ∀ {e : Event} {es : List Event}, e.replaces = false →
      (∀ e ∈ es, e.replaces = false) → ∀ e' ∈ e :: es, e'.replaces = false :=
    fun he hes => List.forall_mem_cons.2 ⟨he, hes⟩
  have left : ∀ (h : Hub) (reason : ReadExit), ∀ e ∈ (leave h w reason).events,
      e.replaces = false := fun h reason => replaces_of_plain (plain_leave h w reason)
  have crashed : ∀ reason : String, ∀ e ∈ (crash h w reason).events, e.replaces = false :=
    fun reason => replaces_of_plain (plain_crash h w reason)
  cases step with
  | halt idle stopping => exact replaces_of_plain (plain_stop h w)
  | dial phase going =>
    rw [events_begin h w going]
    intro e he
    rcases List.mem_append.1 he with he | he
    · exact replaces_of_plain (plain_linkEvents _ _) e he
    · rw [List.mem_singleton.1 he]
      rfl
  | refused phase going passed =>
    refine after rfl fun e he => ?_
    rcases List.mem_append.1 he with he | he
    · exact replaces_of_plain (plain_linkEvents _ _) e he
    · rw [List.mem_singleton.1 he]
      rfl
  | dialBroke phase going passed => exact after rfl (crashed _)
  | @connected due peer tuning phase going passed =>
    have free : h.registry.get? w.key = none := by
      rw [wired.entry, phase]
      rfl
    have events : (connect h w peer tuning).events =
        tune h.policy tuning ++ [.connected (w.outage.markUp h.now h.policy.outage).2] ++
          ([.registry (.registered w.key)] ++ linkEvents w.phase.link .connected) := by
      simp [connect, Registry.register, free]
    refine after rfl fun e he => ?_
    rw [events] at he
    rcases List.mem_append.1 he with he | he
    · rcases List.mem_append.1 he with he | he
      · exact replaces_of_plain (plain_tune _ _) e he
      · rw [List.mem_singleton.1 he]
        rfl
    · exact replaces_of_plain (.append (.single rfl) (plain_linkEvents _ _)) e he
  | retry phase going passed => exact List.forall_mem_nil _
  | closed phase close => exact left h _
  | eof phase going read => exact after rfl (left h _)
  | failed phase going read => exact after rfl (left h _)
  | readBroke phase going read => exact after rfl (crashed _)
  | queued phase going read offer => exact after rfl (List.forall_mem_singleton.2 rfl)
  | parked phase going read offer => exact List.forall_mem_singleton.2 rfl
  | unwanted phase going read offer => exact after rfl (after rfl (left h _))
  | idle phase going read passed stale => exact left h _
  | silent phase going read passed fresh => exact List.forall_mem_singleton.2 rfl
  | givenUp phase close => exact after rfl (left _ _)
  | abandoned phase going claim => exact after rfl (left _ _)
  | handedOver phase going claim => exact List.forall_mem_singleton.2 rfl

/-- No step of a worker cancels a token, or takes a cancellation back. -/
theorem isCancelled_of_transition (step : Transition h w s) (wired : w.Wired h)
    (tokens : h.tokens.Clear ∨ h.tokens.Fired h.stop) (token : Token) :
    s.hub.tokens.isCancelled token = h.tokens.isCancelled token := by
  rcases tokens with clear | fired
  · rw [TokenTree.isCancelled_of_clear clear,
      TokenTree.isCancelled_of_clear (clear_of_transition step wired clear)]
  · have stopping : h.stopping = true := TokenTree.isCancelled_of_fired fired
    -- a worker that is to stop makes no connection, and so no token
    cases step with
    | connected phase going => simp [stopping] at going
    | dial phase going => simp [stopping] at going
    | refused phase going => simp [stopping] at going
    | dialBroke phase going => simp [stopping] at going
    | _ => first | rfl | simp [leave, delivered]

end Worker

namespace Fleet

open Worker

variable {f g : Fleet}

/-- No entry of the registry was ever replaced. -/
def Unreplaced (f : Fleet) : Prop := ∀ e ∈ f.past, e.2.2.replaces = false

/-- Whatever happens to a wired fleet, no entry is replaced. -/
theorem Unreplaced.act {a : Act} (h : f.Unreplaced) (wired : f.Wired) (ha : f.act? a = some g) :
    g.Unreplaced := by
  cases change_of_act? ha with
  | @step slot w s worker step =>
    have kept := replaces_of_transition (transition_of_step? step) (wired.each slot w worker)
    intro e he
    rcases List.mem_append.1 he with he | he
    · obtain ⟨event, mem, rfl⟩ := List.mem_map.1 (List.mem_reverse.1 he)
      exact kept event mem
    · exact h e he
  | _ => exact h

/-- The registry has one entry for each worker that has a connection, under the worker's key and
with the token that closes the connection. -/
theorem Wired.entries_perm (h : f.Wired) :
    f.hub.registry.entries.Perm
      (f.workers.filterMap fun w => w.phase.open?.map fun link => (w.key, link.close)) := by
  have keys : f.workers.Pairwise fun w v => w.key ≠ v.key := List.pairwise_map.1 h.nodup_keys
  have apart : (f.workers.filterMap fun w =>
      w.phase.open?.map fun link => (w.key, link.close)).Nodup := by
    refine List.pairwise_filterMap.2 (keys.imp fun apart e he e' he' same => apart ?_)
    obtain ⟨link, -, rfl⟩ := Option.map_eq_some_iff.1 he
    obtain ⟨link', -, rfl⟩ := Option.map_eq_some_iff.1 he'
    exact congrArg Prod.fst same
  refine (List.perm_ext_iff_of_nodup (.of_map Prod.fst h.nodup) apart).2 fun e => ?_
  rw [List.mem_filterMap]
  constructor
  · intro he
    obtain ⟨w, link, hw, key, hl, close⟩ := h.open_of_mem_entries he
    exact ⟨w, List.mem_of_getElem? hw, by rw [hl, Option.map_some, key, close]⟩
  · rintro ⟨w, hw, he⟩
    obtain ⟨slot, hslot⟩ := List.getElem?_of_mem hw
    obtain ⟨link, hl, rfl⟩ := Option.map_eq_some_iff.1 he
    have entry := (h.each slot w hslot).entry
    rw [hl, Option.map_some] at entry
    obtain ⟨e, he, key⟩ := List.mem_map.1 (Registry.mem_keys_of_get? entry)
    have found := Registry.get?_of_mem h.nodup he
    rw [key, entry, Option.some.injEq] at found
    rw [← key, found]
    exact he

/-- The live addresses are those of the workers that have a connection. -/
theorem Wired.addresses_perm (h : f.Wired) :
    f.hub.registry.addresses.Perm
      ((f.workers.filter Worker.isConnected).map fun w => w.key.addr) := by
  have same : (f.workers.filterMap fun w =>
      w.phase.open?.map fun link => (w.key, link.close)).map (fun e => e.1.addr) =
      (f.workers.filter Worker.isConnected).map fun w => w.key.addr := by
    induction f.workers with
    | nil => rfl
    | cons w ws ih =>
      cases connected : w.phase.open? with
      | none =>
        have shut : w.isConnected = false := by
          simpa [connected] using mt (isConnected_iff w).1
        simpa [List.filterMap_cons, connected, shut] using ih
      | some link =>
        have open_ : w.isConnected = true := (isConnected_iff w).2 (by simp [connected])
        simpa [List.filterMap_cons, connected, open_] using ih
  rw [← same]
  exact (List.mergeSort_perm _ _).trans (h.entries_perm.map _)

end Fleet

/-- The live addresses are in alphabetical order. -/
theorem Registry.pairwise_addresses (r : Registry) : r.addresses.Pairwise (· ≤ ·) := by
  have sorted : r.addresses.Pairwise fun a b => decide (a ≤ b) = true := by
    refine List.pairwise_mergeSort ?_ ?_ _
    · intro a b c ab bc
      exact decide_eq_true (String.le_trans (of_decide_eq_true ab) (of_decide_eq_true bc))
    · intro a b
      simpa using String.le_total a b
  exact sorted.imp of_decide_eq_true

namespace Supervision

open Supervisor

variable {s t : Supervision}

/-- The tokens tell whether the workers were told to stop. -/
structure Told (s : Supervision) : Prop where
  clear : s.supervisor.stopped = false → s.supervisor.fleet.hub.tokens.Clear
  signalled : s.supervisor.stopped = true → s.supervisor.fleet.Signalled

namespace Told

/-- What leaves the tokens alone. -/
theorem congr (h : s.Told) (stopped : t.supervisor.stopped = s.supervisor.stopped)
    (tokens : t.supervisor.fleet.hub.tokens = s.supervisor.fleet.hub.tokens)
    (stop : t.supervisor.fleet.hub.stop = s.supervisor.fleet.hub.stop) : t.Told where
  clear unstopped := tokens ▸ h.clear (stopped ▸ unstopped)
  signalled already := by
    rw [Fleet.Signalled, tokens, stop]
    exact h.signalled (stopped ▸ already)

theorem joinWorkers (h : s.Told) (first : Bool) (count : Nat) (slots : List Nat)
    (calls : List StopCall) :
    Told { supervisor := (Supervisor.joinWorkers first count slots s.supervisor).1, calls } := by
  rcases fleet_joinWorkers first count slots s.supervisor with same | closed
  · exact h.congr (stopped_joinWorkers ..) (by rw [same]) (by rw [same])
  · exact h.congr (stopped_joinWorkers ..) (by rw [closed]; rfl) (by rw [closed]; rfl)

/-- A call of stop signals the workers, if nobody did so before. -/
theorem poll (h : s.Told) (tended : s.Tended) {n : Nat} (ht : s.act? (.poll n) = some t) :
    t.Told := by
  obtain ⟨call, hc, rfl⟩ := Option.map_eq_some_iff.1 ht
  cases call with
  | fresh =>
    simp only [Supervisor.pollStop]
    cases stopped : s.supervisor.stopped with
    | true => simpa using h.joinWorkers false 0 _ _
    | false =>
      have signalled : Told { supervisor := s.supervisor.signal, calls := s.calls } :=
        ⟨fun unstopped => (by cases unstopped),
          fun _ => Fleet.signalled_signal s.supervisor.fleet tended.wired.stop⟩
      simpa using signalled.joinWorkers true 0 _ _
  | joining first count slot =>
    simp only [Supervisor.pollStop]
    split
    · have noted : Told { s with supervisor := s.supervisor.noteJoin slot } :=
        h.congr (stopped_noteJoin ..) (by rw [fleet_noteJoin]) (by rw [fleet_noteJoin])
      exact noted.joinWorkers first (count + 1) _ _
    · exact h.congr rfl rfl rfl
  | finished => exact h.congr rfl rfl rfl

/-- What workers, receiver and clock do cancels no token. -/
theorem fleet (h : s.Told) (tended : s.Tended) {a : Fleet.Act} {fleet : Fleet}
    (quiet : a.isControl = false) (ha : s.supervisor.fleet.act? a = some fleet) :
    Told { s with supervisor := { s.supervisor with fleet } } where
  clear unstopped := by
    have clear := h.clear unstopped
    cases Fleet.change_of_act? ha with
    | @step slot w step worker stepped =>
      exact Worker.clear_of_transition (Worker.transition_of_step? stepped)
        (tended.wired.each slot w worker) clear
    | stop => cases quiet
    | closeAll => cases quiet
    | closeBus => cases quiet
    | receive => exact clear
    | dropReceivers => exact clear
    | clock => exact clear
  signalled stopped := (h.signalled stopped).act tended.wired ha

/-- Whatever happens, the tokens tell whether the workers were told to stop. -/
theorem act {a : Act} (h : s.Told) (tended : s.Tended) (ht : s.act? a = some t) : t.Told := by
  cases a with
  | start =>
    cases ht
    unfold Supervisor.start
    split
    · exact h.congr rfl rfl rfl
    · split
      · exact h.congr rfl rfl rfl
      · dsimp only
        split
        · exact h.congr rfl rfl rfl
        · exact h.congr rfl rfl rfl
  | call =>
    cases ht
    exact h.congr rfl rfl rfl
  | poll n => exact h.poll tended ht
  | giveUp n =>
    obtain ⟨call, -, rfl⟩ := Option.map_eq_some_iff.1 ht
    cases call with
    | joining first count slot => exact h.congr rfl rfl rfl
    | fresh => exact h.congr rfl rfl rfl
    | finished => exact h.congr rfl rfl rfl
  | step slot =>
    obtain ⟨fleet, hf, rfl⟩ := Option.map_eq_some_iff.1 ht
    exact h.fleet tended rfl hf
  | receive =>
    obtain ⟨fleet, hf, rfl⟩ := Option.map_eq_some_iff.1 ht
    exact h.fleet tended rfl hf
  | pass time =>
    obtain ⟨fleet, hf, rfl⟩ := Option.map_eq_some_iff.1 ht
    exact h.fleet tended rfl hf

theorem run {acts : List Act} (h : s.Told) (tended : s.Tended) (ran : s.run? acts = some t) :
    t.Told := by
  induction acts generalizing s with
  | nil =>
    cases ran
    exact h
  | cons a acts ih =>
    obtain ⟨s', hs, ran⟩ := Option.bind_eq_some_iff.1 ran
    exact ih (h.act tended hs) (tended.act hs) ran

/-- The stop token is cancelled once the workers were told to stop. -/
theorem stopping_eq (h : s.Told) : s.supervisor.fleet.hub.stopping = s.supervisor.stopped := by
  cases stopped : s.supervisor.stopped with
  | true => exact TokenTree.isCancelled_of_fired (h.signalled stopped)
  | false => exact TokenTree.isCancelled_of_clear (h.clear stopped) _

/-- The tokens that close connections are cancelled once the workers were told to stop. -/
theorem isCancelled_eq (h : s.Told) (tended : s.Tended) {e : SourceKey × Token}
    (he : e ∈ s.supervisor.fleet.hub.registry.entries) :
    s.supervisor.fleet.hub.tokens.isCancelled e.2 = s.supervisor.stopped := by
  cases stopped : s.supervisor.stopped with
  | true =>
    obtain ⟨w, link, hw, -, hl, close⟩ := tended.wired.open_of_mem_entries he
    rw [← close]
    exact TokenTree.isCancelled_of_childOf ((tended.wired.each _ w hw).close link hl)
      (h.signalled stopped)
  | false => exact TokenTree.isCancelled_of_clear (h.clear stopped) _

end Told

/-- Every state that a supervisor can reach tells whether the workers were told to stop, and no
entry of the registry was ever replaced. -/
theorem told_of_run? {sources : List String} {policy : Policy} {network : Network}
    {counting : Bool} {supervisor : Supervisor} {acts : List Act}
    (created : Supervisor.create sources policy network counting = .ok supervisor)
    (ran : run? { supervisor } acts = some s) :
    s.Told ∧ s.supervisor.fleet.Unreplaced := by
  have tended := tended_create created
  obtain ⟨-, -, rfl⟩ := Supervisor.create_eq_ok created
  have new : ∀ e : Instant × Nat × Worker.Event, e ∉ [] := fun e => List.not_mem_nil
  constructor
  · refine Told.run ?_ tended ran
    exact ⟨fun _ => TokenTree.clear_fresh, fun stopped => by cases stopped⟩
  · refine (preserved_of_run? (P := fun f => f.Wired ∧ f.Unreplaced) ?_ ?_ tended
      ⟨tended.wired, fun e he => absurd he (new e)⟩ ran).2
    · exact fun _ h ha => ⟨h.1.act ha, h.2.act h.1 ha⟩
    · exact fun h none => ⟨h.1.spawn none _, h.2⟩

/-- **What the registry holds.**  In every state that a supervisor can reach, for any sources and
whatever their peers do, the worker in each slot has the key of its slot and source, and:

* the registry has one entry for each worker that has a connection, under the worker's key and with
  the token that closes the connection, and no other entry;
* the active connections are the addresses of these workers, each as often as it occurs, in
  alphabetical order;
* the token of every entry is cancelled once the stop token is, which is once the workers were told
  to stop, and not before;
* no entry was ever replaced, and no step of a worker cancels a token. -/
theorem registered_of_run {sources : List String} {policy : Policy} {network : Network}
    {counting : Bool} {supervisor : Supervisor} {acts : List Act}
    (created : Supervisor.create sources policy network counting = .ok supervisor)
    (ran : run? { supervisor } acts = some s) :
    let fleet := s.supervisor.fleet
    let connected := fleet.workers.filter Worker.isConnected
    (∀ (slot : Nat) (w : Worker), fleet.workers[slot]? = some w →
      w.key.slot = slot ∧ sources[slot]? = some w.key.addr) ∧
    fleet.hub.registry.entries.Perm
      (fleet.workers.filterMap fun w => w.phase.open?.map fun link => (w.key, link.close)) ∧
    s.supervisor.activeConnections.Perm (connected.map fun w => w.key.addr) ∧
    s.supervisor.activeConnections.Pairwise (· ≤ ·) ∧
    fleet.hub.stopping = s.supervisor.stopped ∧
    (∀ e ∈ fleet.hub.registry.entries,
      fleet.hub.tokens.isCancelled e.2 = s.supervisor.stopped) ∧
    (∀ t slot key, (t, slot, .registry (.replaced key)) ∉ fleet.past) ∧
    ∀ slot t, s.act? (.step slot) = some t → ∀ token,
      t.supervisor.fleet.hub.tokens.isCancelled token = fleet.hub.tokens.isCancelled token := by
  intro fleet connected
  have tended := tended_of_run? created ran
  obtain ⟨told, unreplaced⟩ := told_of_run? created ran
  obtain ⟨gauged, -⟩ := gauged_of_run? created ran
  refine ⟨fun slot w hw => ⟨tended.wired.slots slot w hw, gauged.addrs slot w hw⟩,
    tended.wired.entries_perm, tended.wired.addresses_perm, Registry.pairwise_addresses _,
    told.stopping_eq, fun e he => told.isCancelled_eq tended he, ?_, ?_⟩
  · intro t slot key hk
    cases unreplaced _ hk
  · intro slot t ht token
    obtain ⟨f, hf, rfl⟩ := Option.map_eq_some_iff.1 ht
    obtain ⟨w, step, worker, stepped, rfl⟩ := Fleet.exists_of_stepWorker? hf
    refine Worker.isCancelled_of_transition (Worker.transition_of_step? stepped)
      (tended.wired.each slot w worker) ?_ token
    cases stopped : s.supervisor.stopped with
    | true => exact .inr (told.signalled stopped)
    | false => exact .inl (told.clear stopped)

/-- Two workers for one address, both of which are reached at once; the first read of one of the
connections breaks down. -/
def doubled : Supervisor where
  sources := ["feed:1", "feed:1"]
  fleet := Fleet.create {}
    ⟨[("feed:1", [.settles 0 (.connected [(0, .breaksDown "read broke")] none),
      .settles 0 (.connected [] none)])]⟩
    { capacity := 1000 } true false

/-- Both workers connect, the one breaks down, and the capture is stopped. -/
def doubledActs : List Act :=
  [.start, .step 0, .step 0, .step 1, .step 1, .step 0, .call, .poll 0]

/-- The entry of the worker that broke down is gone, and the other connection is told to close. -/
theorem registered_of_run_doubled :
    ∃ s, Supervisor.create doubled.sources {} doubled.fleet.hub.network true = .ok doubled ∧
      run? { supervisor := doubled } doubledActs = some s ∧
      s.supervisor.activeConnections.Perm ["feed:1"] ∧
      s.supervisor.fleet.hub.registry.entries.length = 1 ∧
      ∀ e ∈ s.supervisor.fleet.hub.registry.entries,
        s.supervisor.fleet.hub.tokens.isCancelled e.2 = true := by
  have outcome : (run? { supervisor := doubled } doubledActs).map (fun s =>
      (s.supervisor.stopped,
        (s.supervisor.fleet.workers.filter Worker.isConnected).map (fun w => w.key.addr),
        (s.supervisor.fleet.workers.filterMap fun w =>
          w.phase.open?.map fun link => (w.key, link.close)).length)) =
      some (true, ["feed:1"], 1) := by
    decide +kernel
  obtain ⟨s, ran, facts⟩ := Option.map_eq_some_iff.1 outcome
  simp only [Prod.mk.injEq] at facts
  obtain ⟨stopped, addrs, one⟩ := facts
  have created : Supervisor.create doubled.sources {} doubled.fleet.hub.network true =
      .ok doubled := rfl
  obtain ⟨-, entries, active, -, -, cancelled, -⟩ := registered_of_run created ran
  rw [addrs] at active
  exact ⟨s, created, ran, active, entries.length_eq.trans one,
    fun e he => (cancelled e he).trans stopped⟩

end Supervision

end FeedCapture
