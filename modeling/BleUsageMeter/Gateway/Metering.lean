import BleUsageMeter.Kit.Channels
import BleUsageMeter.Gateway.Handle
import BleUsageMeter.Gateway.Proxy

/-! `cmd_proxy` of `gateway/cli.py`: the proxy with `pipeline.handle` behind it.  Unlike `observe`,
which counts notifications, it counts what the appliance was told.  Whatever order the writes return
in, those that returned are logged and those that match are counted, each once, over what the store
had before. -/

namespace BleUsageMeter.Gateway

open Kit

/-- What a call of `handle` comes to for its caller. -/
def Meter.handleResult (matcher : Matcher) (g : Meter) (write : GattWrite) : HandlerResult Empty :=
  let event := matcher.classify write
  match g.store.appendEvent (eventRow g.process.counter event write) with
  | .error _ => .raised
  | .ok store =>
    if event = unknown then .value
    else
      match store.saveCounter write.peerAddr (g.process.counter.increment write.peerAddr).1 with
      | .error _ => .raised
      | .ok _ => .value

/-- `pipeline.handle` as the `on_write` of a proxy.  It is not a coroutine. -/
def pipelineHandler (matcher : Matcher) : WriteHandler Meter Empty where
  call g write := (g.handle matcher write, g.handleResult matcher write)
  resume _ c := c.elim

/-- The proxy of `cmd_proxy` on a store, once it is attached to the appliance. -/
def cmdProxy (matcher : Matcher) (address : String) (store : Store) :
    TransparentProxy Meter Empty :=
  .connect address matcher (.loaded store)

theorem pipelineHandler_count (matcher : Matcher) (g : Meter) (write : GattWrite) :
    (pipelineHandler matcher).count g write = (g.handle matcher write, .returned) := by
  have hcall : (pipelineHandler matcher).call g write =
      (g.handle matcher write, g.handleResult matcher write) := rfl
  rw [WriteHandler.count, hcall]
  cases g.handleResult matcher write with
  | value => rfl
  | raised => rfl
  | coroutine c => exact c.elim

namespace TransparentProxy

variable {matcher : Matcher} {address : String} {store : Store}
  {p q : TransparentProxy Meter Empty} {es : List ProxyEvent} {e : ProxyEvent}

/-- The meter has handled what the handler was called with. -/
structure Meters (matcher : Matcher) (address : String) (store : Store)
    (p : TransparentProxy Meter Empty) : Prop where
  address_eq : p.address = address
  metering : p.metering =
    (p.handled.map Prod.snd).foldl (Meter.handle matcher) (.loaded store)
  handled : ∀ x ∈ p.handled, x.1 < p.calls.length ∧ x.2.peerAddr = address

theorem cmdProxy_meters (matcher : Matcher) (address : String) (store : Store) :
    Meters matcher address store (cmdProxy matcher address store) :=
  ⟨rfl, rfl, List.forall_mem_nil _⟩

theorem Meters.step (h : Meters matcher address store p)
    (hstep : p.step (pipelineHandler matcher) e = some q) : Meters matcher address store q := by
  rcases step_call_cases hstep with ⟨call, rfl⟩ | ⟨charUuid, data, rfl⟩ |
    ⟨i, call, -, hcall, rfl⟩ | ⟨i, call, -, hcall, rfl⟩ | ⟨i, call, c, -, -, -⟩
  · have hlater : ∀ x ∈ p.handled, x.1 < p.calls.length + 1 ∧ x.2.peerAddr = address := by
      intro x hx
      obtain ⟨hlt, hpeer⟩ := h.handled x hx
      exact ⟨Nat.lt_succ_of_lt hlt, hpeer⟩
    simp only [TransparentProxy.step] at hstep
    split at hstep
    · obtain rfl := Option.some.inj hstep
      exact ⟨h.address_eq, h.metering, by simpa using hlater⟩
    · obtain rfl := Option.some.inj hstep
      exact ⟨h.address_eq, h.metering, by simpa using hlater⟩
  · obtain rfl := Option.some.inj hstep
    exact ⟨h.address_eq, h.metering, h.handled⟩
  · refine ⟨h.address_eq, ?_, ?_⟩
    · dsimp only
      rw [pipelineHandler_count, h.metering, List.map_append, List.foldl_append]
      rfl
    · intro x hx
      rw [List.length_set]
      rcases List.mem_append.mp hx with hx | hx
      · exact h.handled x hx
      · obtain rfl := List.mem_singleton.mp hx
        exact ⟨(List.getElem?_eq_some_iff.mp hcall).1, h.address_eq⟩
  · refine ⟨h.address_eq, h.metering, ?_⟩
    rw [List.length_set]
    exact h.handled
  · exact c.elim

theorem handledBy_eq_channel (p : TransparentProxy Meter Empty) (i : Nat) :
    p.handledBy i = channel i p.handled := by
  unfold handledBy
  induction p.handled with
  | nil => rfl
  | cons x rest ih =>
    rw [channel_cons, List.filter_cons, ← ih]
    by_cases hx : x.1 = i <;> simp [hx]

/-- Call `i` has written to the appliance, the write has returned, and it has the property. -/
def Returned (P : ForwardCall → Bool) (es : List ProxyEvent) (i : Nat) : Prop :=
  .writeReturned i ∈ es ∧ ((started es)[i]?.any P)

instance (P : ForwardCall → Bool) (es : List ProxyEvent) (i : Nat) : Decidable (Returned P es i) :=
  inferInstanceAs (Decidable (_ ∧ _))

/-- The writes that are handled are those of the calls whose write has returned. -/
theorem Relayed.countP_handled {α κ : Type} {p : TransparentProxy α κ} (h : Relayed es p)
    (P : GattWrite → Bool) (i : Nat) : (p.handledBy i).countP P =
      if Returned (fun call => P (call.gattWrite p.address)) es i then 1 else 0 := by
  have hcounts := h.forwardsThenCounts
  by_cases hreturned : .writeReturned i ∈ es
  · cases hcall : (started es)[i]? with
    | none =>
      have hlength : p.calls.length ≤ i := by
        rw [← List.length_map Prod.fst, h.calls]
        exact List.getElem?_eq_none_iff.mp hcall
      exact absurd hreturned (h.absent i hlength).1
    | some call =>
      rw [hcounts.counted i call hcall hreturned, List.countP_singleton]
      simp [Returned, hreturned, hcall]
  · rw [hcounts.uncounted i hreturned, if_neg fun hP => hreturned hP.1]
    rfl

/-- The number of the calls whose write returned that have a property, in whatever order the writes
returned. -/
def returnedCount (P : ForwardCall → Bool) (es : List ProxyEvent) : Nat :=
  ((Finset.range (started es).length).filter (Returned P es)).card

theorem Meters.countP_handled (h : Meters matcher address store p) (hrelayed : Relayed es p)
    (P : GattWrite → Bool) : (p.handled.map Prod.snd).countP P =
      returnedCount (fun call => P (call.gattWrite address)) es := by
  have hlength : p.calls.length = (started es).length := by
    rw [← hrelayed.calls, List.length_map]
  rw [countP_eq_sum_channels P (started es).length fun x hx => hlength ▸ (h.handled x hx).1,
    returnedCount, Finset.card_filter]
  refine Finset.sum_congr rfl fun i _ => ?_
  rw [← handledBy_eq_channel, hrelayed.countP_handled, h.address_eq]

end TransparentProxy

open TransparentProxy

/-- However the calls of `forward_from_app` interleave and whichever writes raise, every call is
forwarded as it came, the log has one more row for each write that returned, and the stored count of
the appliance has grown by the number of those that match, up to what SQLite can hold. -/
theorem proxy_counts {matcher : Matcher} {address : String} {store : Store} (hfits : store.Fits)
    {es : List ProxyEvent} {p : TransparentProxy Meter Empty}
    (hrun : Run (step (pipelineHandler matcher)) Always (cmdProxy matcher address store) es p) :
    p.writes = (started es).map ForwardCall.write ∧
    p.metering.store.events.length =
      store.events.length + returnedCount (fun _ => true) es ∧
    p.metering.store.count address = min maxCount (store.count address +
      returnedCount (fun call => matcher.classify (call.gattWrite address) ≠ unknown) es) ∧
    ∀ d, d ≠ address → p.metering.store.count d = store.count d := by
  have hrelayed := relayed_of_run (connect_relayed address matcher (Meter.loaded store)) hrun
  have hmeters : Meters matcher address store p :=
    hrun.preserves (cmdProxy_meters matcher address store) fun _ _ _ ht _ hstep => ht.step hstep
  have hresumed := Meter.resumed matcher hfits (p.handled.map Prod.snd)
  have hpeer : ∀ write ∈ p.handled.map Prod.snd, write.peerAddr = address := by
    intro write hwrite
    obtain ⟨x, hx, rfl⟩ := List.mem_map.mp hwrite
    exact (hmeters.handled x hx).2
  obtain ⟨hcount, hothers⟩ := hresumed.count_peer hfits hpeer
  rw [← hmeters.metering] at hcount hothers
  refine ⟨hrelayed.writes, ?_, ?_, hothers⟩
  · rw [hmeters.metering, ← List.length_map EventRow.entry, hresumed.logged, List.length_append,
      List.length_map, List.length_map]
    have hall := hmeters.countP_handled hrelayed fun _ => true
    rw [List.countP_true] at hall
    rw [hall]
  · rw [hcount, hmeters.countP_handled hrelayed]

/-- Three writes at once, of which the last returns first and the second raises. -/
def sampleRelay : List ProxyEvent :=
  [.forwardFromApp ⟨"s", "c", [1], true⟩, .forwardFromApp ⟨"s", "c", [2], false⟩,
    .forwardFromApp ⟨"s", "c", [3], true⟩, .writeReturned 2, .writeRaised 1,
    .forwardFromAppliance "c" [4], .writeReturned 0]

theorem proxy_counts_sample : ∃ p : TransparentProxy Meter Empty,
    p.handled.map (fun x => x.2.payload) = [[3], [1]] ∧ p.metering.store.count "d" = 7 ∧
      p.metering.store.count "e" = 2 := by
  have heval : ((Run.execute (step (pipelineHandler (.ofRules [Meter.sampleRule])))
      (cmdProxy (.ofRules [Meter.sampleRule]) "d" Meter.sampleStore) sampleRelay).any fun p =>
        decide (p.handled.map (fun x => x.2.payload) = [[3], [1]])) = true := by
    decide +kernel
  obtain ⟨p, hp, hhandled⟩ := (Option.any_eq_true _ _).mp heval
  obtain ⟨-, -, hcount, hothers⟩ := proxy_counts Meter.sampleStore_fits (.of_execute hp)
  refine ⟨p, of_decide_eq_true hhandled, hcount.trans ?_, (hothers "e" (by decide)).trans ?_⟩
  · decide +kernel
  · decide +kernel

end BleUsageMeter.Gateway
