import BleUsageMeter.Kit.Channels
import BleUsageMeter.Gateway.Observer
import BleUsageMeter.Gateway.Handle

/-! `PassiveObserver.run` of `gateway/observer.py` with the pipeline of `cmd_observe` behind it.
Every characteristic that notifies or indicates is subscribed with a handler of its own, so what is
counted depends on the notifications of each characteristic and not on how they interleave. -/

namespace BleUsageMeter.Gateway

open Kit

structure Characteristic where
  uuid : String
  properties : List String

structure Service where
  uuid : String
  characteristics : List Characteristic

def Characteristic.notifies (char : Characteristic) : Bool :=
  "notify" ∈ char.properties ∨ "indicate" ∈ char.properties

/-- The service and the characteristic of each `start_notify`, in the order of the loops. -/
def targets (services : List Service) : List (String × String) :=
  services.flatMap fun service =>
    (service.characteristics.filter Characteristic.notifies).map fun char =>
      (service.uuid, char.uuid)

theorem mem_targets {services : List Service} {target : String × String} :
    target ∈ targets services ↔ ∃ service ∈ services, ∃ char ∈ service.characteristics,
      ("notify" ∈ char.properties ∨ "indicate" ∈ char.properties) ∧
        (service.uuid, char.uuid) = target := by
  simp only [targets, List.mem_flatMap, List.mem_map, List.mem_filter, Characteristic.notifies,
    decide_eq_true_eq, and_assoc]

/-- A run of `cmd_observe`: the characteristics that are yet to be subscribed, the handlers of those
that are, the calls of `on_write` with the number of the handler, and the meter behind them. -/
structure Observing where
  address : String
  pending : List (String × String)
  handlers : List NotifyHandler
  attached : Bool
  calls : List (Nat × GattWrite)
  meter : Meter

/-- What `start_notify` does, a notification with the `max_write_without_response_size` of its
sender, or the end of the run. -/
inductive ObserveEvent
  | subscribed
  | subscribeRaised
  | notified (k : Nat) (mtu : Option Nat) (data : List UInt8)
  | ended

/-- `run` up to its first `start_notify`. -/
def Observing.run (address : Option String) (services : List Service) (meter : Meter) :
    Except PyException Observing :=
  match address with
  | none => .error .valueError
  | some address => .ok ⟨address, targets services, [], true, [], meter⟩

/-- The service and the characteristic that a handler was made for. -/
def NotifyHandler.target (h : NotifyHandler) : String × String := (h.serviceUuid, h.charUuid)

/-- A notification for a handler. -/
def NotifyHandler.receiveOne (h : NotifyHandler) (notification : Option Nat × List UInt8) :
    NotifyHandler × Option GattWrite :=
  h.notify notification.1 notification.2

namespace Observing

/-- The next event, when it can happen. -/
def step (matcher : Matcher) (o : Observing) : ObserveEvent → Option Observing
  | .subscribed =>
    match o.attached, o.pending with
    | true, (service, char) :: pending =>
      some { o with
        pending
        handlers := o.handlers ++ [.make (some o.address) service char] }
    | _, _ => none
  | .subscribeRaised =>
    match o.attached, o.pending with
    | true, _ :: _ => some { o with attached := false }
    | _, _ => none
  | .notified k mtu data =>
    match o.attached, o.handlers[k]? with
    | true, some handler =>
      let (handler, write) := handler.notify mtu data
      some { o with
        handlers := o.handlers.set k handler
        calls := o.calls ++ write.toList.map fun write => (k, write)
        meter := write.elim o.meter (o.meter.handle matcher) }
    | _, _ => none
  | .ended => if o.attached then some { o with attached := false } else none

end Observing

/-- The notifications of a run, each with the number of its handler. -/
def notifications (es : List ObserveEvent) : List (Nat × (Option Nat × List UInt8)) :=
  es.filterMap fun
    | .notified k mtu data => some (k, mtu, data)
    | _ => none

/-- The calls that a characteristic's own notifications lead to. -/
def callsOf (address : String) (services : List Service) (es : List ObserveEvent) (k : Nat) :
    List GattWrite :=
  match (targets services)[k]? with
  | none => []
  | some target =>
    (feed NotifyHandler.receiveOne (.make (some address) target.1 target.2)
      (channel k (notifications es))).2

/-- What a run has done by some moment. -/
structure Observed (matcher : Matcher) (address : String) (services : List Service) (meter : Meter)
    (es : List ObserveEvent) (o : Observing) : Prop where
  address_eq : o.address = address
  length_le : o.handlers.length ≤ (targets services).length
  pending : o.pending = (targets services).drop o.handlers.length
  handlers : ∀ k handler target, o.handlers[k]? = some handler →
    (targets services)[k]? = some target →
    feed NotifyHandler.receiveOne (.make (some address) target.1 target.2)
      (channel k (notifications es)) = (handler, channel k o.calls)
  others : ∀ k, o.handlers.length ≤ k → channel k (notifications es) = [] ∧ channel k o.calls = []
  keys : ∀ call ∈ o.calls, call.1 < o.handlers.length
  meter_eq : o.meter = (o.calls.map Prod.snd).foldl (Meter.handle matcher) meter

section Run

variable {matcher : Matcher} {address : String} {services : List Service} {meter : Meter}
  {es : List ObserveEvent} {o u : Observing} {k : Nat}

theorem notifications_concat (es : List ObserveEvent) (e : ObserveEvent) :
    notifications (es ++ [e]) = notifications es ++ notifications [e] :=
  List.filterMap_append

/-- An event that calls no handler. -/
theorem Observed.silent (h : Observed matcher address services meter es o) {e : ObserveEvent}
    (he : notifications [e] = []) (attached : Bool) :
    Observed matcher address services meter (es ++ [e]) { o with attached } := by
  have hsame : notifications (es ++ [e]) = notifications es := by
    rw [notifications_concat, he, List.append_nil]
  exact ⟨h.address_eq, h.length_le, h.pending, hsame ▸ h.handlers, hsame ▸ h.others, h.keys,
    h.meter_eq⟩

theorem Observed.subscribe (h : Observed matcher address services meter es o)
    {target : String × String} {pending : List (String × String)}
    (hpending : o.pending = target :: pending) :
    Observed matcher address services meter (es ++ [.subscribed])
      { o with
        pending
        handlers := o.handlers ++ [.make (some o.address) target.1 target.2] } := by
  have hdrop := h.pending.symm.trans hpending
  have htarget : (targets services)[o.handlers.length]? = some target := by
    have hhead := congrArg (fun l => l[0]?) hdrop
    simpa [List.getElem?_drop] using hhead
  have hlt : o.handlers.length < (targets services).length :=
    (List.getElem?_eq_some_iff.mp htarget).1
  have hnone : notifications (es ++ [.subscribed]) = notifications es := by
    rw [notifications_concat]
    exact List.append_nil _
  have hlength : (o.handlers ++ [NotifyHandler.make (some o.address) target.1 target.2]).length =
      o.handlers.length + 1 := by
    simp
  refine ⟨h.address_eq, hlength ▸ hlt, ?_, ?_, ?_, ?_, h.meter_eq⟩
  · show pending = _
    rw [hlength, ← List.tail_drop, hdrop, List.tail_cons]
  · intro k handler other hhandler hother
    rw [hnone]
    rcases Nat.lt_or_ge k o.handlers.length with hk | hk
    · exact h.handlers k handler other (by simpa [List.getElem?_append_left hk] using hhandler)
        hother
    · obtain ⟨hin, hout⟩ := h.others k hk
      have hkey : k = o.handlers.length := by
        have := (List.getElem?_eq_some_iff.mp hhandler).1
        rw [hlength] at this
        omega
      subst hkey
      obtain rfl := Option.some.inj (htarget.symm.trans hother)
      simp only [List.getElem?_concat_length, Option.some.injEq] at hhandler
      rw [hin, hout, ← hhandler, h.address_eq]
      rfl
  · intro k hk
    rw [hlength] at hk
    rw [hnone]
    exact h.others k (by omega)
  · intro call hcall
    rw [hlength]
    exact Nat.lt_succ_of_lt (h.keys call hcall)

theorem Observed.notify (h : Observed matcher address services meter es o)
    {handler : NotifyHandler} (hhandler : o.handlers[k]? = some handler) (mtu : Option Nat)
    (data : List UInt8) :
    Observed matcher address services meter (es ++ [.notified k mtu data])
      { o with
        handlers := o.handlers.set k (handler.notify mtu data).1
        calls := o.calls ++ (handler.notify mtu data).2.toList.map fun write => (k, write)
        meter := (handler.notify mtu data).2.elim o.meter (o.meter.handle matcher) } := by
  have hk : k < o.handlers.length := (List.getElem?_eq_some_iff.mp hhandler).1
  have hnotified : notifications (es ++ [.notified k mtu data]) =
      notifications es ++ [(k, mtu, data)] := notifications_concat _ _
  have hin : ∀ j, channel j (notifications (es ++ [.notified k mtu data])) =
      channel j (notifications es) ++ if k = j then [(mtu, data)] else [] := by
    intro j
    rw [hnotified, channel_append, ← channel_tagged]
    rfl
  have hout : ∀ j, channel j (o.calls ++ (handler.notify mtu data).2.toList.map
      fun write => (k, write)) = channel j o.calls ++
        if k = j then (handler.notify mtu data).2.toList else [] := by
    intro j
    rw [channel_append, channel_tagged]
  refine ⟨h.address_eq, ?_, ?_, ?_, ?_, ?_, ?_⟩
  · rw [List.length_set]
    exact h.length_le
  · rw [List.length_set]
    exact h.pending
  · intro j other target hother htarget
    rw [hin, hout]
    by_cases hj : k = j
    · subst hj
      rw [List.getElem?_set_self hk] at hother
      rw [if_pos rfl, if_pos rfl, feed_concat, h.handlers k handler target hhandler htarget,
        ← Option.some.inj hother]
      rfl
    · rw [List.getElem?_set_ne hj] at hother
      rw [if_neg hj, if_neg hj, List.append_nil, List.append_nil]
      exact h.handlers j other target hother htarget
  · intro j hj
    rw [List.length_set] at hj
    have hne : k ≠ j := by omega
    rw [hin, hout, if_neg hne, if_neg hne, List.append_nil, List.append_nil]
    exact h.others j hj
  · intro call hcall
    rw [List.length_set]
    rcases List.mem_append.mp hcall with hcall | hcall
    · exact h.keys call hcall
    · obtain ⟨write, -, rfl⟩ := List.mem_map.mp hcall
      exact hk
  · rw [List.map_append, List.foldl_append, ← h.meter_eq]
    cases (handler.notify mtu data).2 <;> rfl

theorem Observed.step (h : Observed matcher address services meter es o) {e : ObserveEvent}
    (hstep : o.step matcher e = some u) :
    Observed matcher address services meter (es ++ [e]) u := by
  cases e with
  | subscribed =>
    rw [Observing.step] at hstep
    split at hstep
    · rename_i service char pending _ hpending
      obtain rfl := Option.some.inj hstep
      exact h.subscribe hpending
    · cases hstep
  | subscribeRaised =>
    rw [Observing.step] at hstep
    split at hstep
    · obtain rfl := Option.some.inj hstep
      exact h.silent rfl false
    · cases hstep
  | notified k mtu data =>
    rw [Observing.step] at hstep
    split at hstep
    · rename_i handler _ hhandler
      obtain rfl := Option.some.inj hstep
      exact h.notify hhandler mtu data
    · cases hstep
  | ended =>
    rw [Observing.step] at hstep
    split at hstep
    · obtain rfl := Option.some.inj hstep
      exact h.silent rfl false
    · cases hstep

theorem observed_of_run {start : Observing}
    (hstart : Observing.run (some address) services meter = .ok start)
    (h : Run (Observing.step matcher) Always start es o) :
    Observed matcher address services meter es o := by
  obtain rfl := Except.ok.inj hstart
  apply h.traces
  · refine ⟨rfl, Nat.zero_le _, rfl, ?_, fun _ _ => ⟨rfl, rfl⟩, List.forall_mem_nil _, rfl⟩
    intro k handler target hhandler
    cases hhandler
  · exact fun _ _ _ _ ht _ hstep => ht.step hstep

/-- Notifications change nothing of a handler but its buffer. -/
theorem receiveOne_keeps (handler : NotifyHandler) (input : Option Nat × List UInt8) :
    (handler.receiveOne input).1 = { handler with buf := (handler.receiveOne input).1.buf } := by
  unfold NotifyHandler.receiveOne NotifyHandler.notify
  dsimp only
  split <;> rfl

theorem feed_keeps (handler : NotifyHandler) (inputs : List (Option Nat × List UInt8)) :
    (feed NotifyHandler.receiveOne handler inputs).1 =
      { handler with buf := (feed NotifyHandler.receiveOne handler inputs).1.buf } := by
  induction inputs using List.reverseRecOn with
  | nil => rfl
  | append_singleton inputs input ih =>
    rw [feed_concat]
    dsimp only
    rw [receiveOne_keeps, ih]

theorem feed_target (handler : NotifyHandler) (inputs : List (Option Nat × List UInt8)) :
    (feed NotifyHandler.receiveOne handler inputs).1.target = handler.target := by
  rw [feed_keeps]
  rfl

/-- Every call is for the observed address. -/
theorem feed_peerAddr (handler : NotifyHandler) (inputs : List (Option Nat × List UInt8)) :
    ∀ write ∈ (feed NotifyHandler.receiveOne handler inputs).2,
      write.peerAddr = handler.address.getD "None" := by
  induction inputs using List.reverseRecOn with
  | nil => exact List.forall_mem_nil _
  | append_singleton inputs input ih =>
    rw [feed_concat, feed_keeps]
    intro write hwrite
    rcases List.mem_append.mp hwrite with hwrite | hwrite
    · exact ih write hwrite
    · unfold NotifyHandler.receiveOne NotifyHandler.notify at hwrite
      dsimp only at hwrite
      split at hwrite
      · cases hwrite
      · obtain rfl := List.mem_singleton.mp hwrite
        rfl

/-- The handlers are those of the first targets, and the others are pending. -/
theorem Observed.subscribed (h : Observed matcher address services meter es o) :
    o.handlers.map NotifyHandler.target ++ o.pending = targets services := by
  have htake : o.handlers.map NotifyHandler.target =
      (targets services).take o.handlers.length := by
    apply List.ext_getElem
    · rw [List.length_map, List.length_take, Nat.min_eq_left h.length_le]
    · intro k hk _
      rw [List.length_map] at hk
      have hlt := Nat.lt_of_lt_of_le hk h.length_le
      have htarget := List.getElem?_eq_getElem hlt
      have hkept := feed_target (.make (some address) (targets services)[k].1
        (targets services)[k].2) (channel k (notifications es))
      rw [h.handlers k _ _ (List.getElem?_eq_getElem hk) htarget] at hkept
      rw [List.getElem_map, List.getElem_take]
      exact hkept
  rw [htake, h.pending, List.take_append_drop]

theorem Observed.callsOf_eq (h : Observed matcher address services meter es o) (k : Nat) :
    channel k o.calls = callsOf address services es k := by
  unfold callsOf
  rcases Nat.lt_or_ge k o.handlers.length with hk | hk
  · have htarget := List.getElem?_eq_getElem (Nat.lt_of_lt_of_le hk h.length_le)
    have hhandler := List.getElem?_eq_getElem hk
    rw [htarget]
    dsimp only
    rw [h.handlers k _ _ hhandler htarget]
  · obtain ⟨hin, hout⟩ := h.others k hk
    rw [hin, hout]
    cases (targets services)[k]? <;> rfl

theorem Observed.peerAddr (h : Observed matcher address services meter es o)
    {call : Nat × GattWrite} (hcall : call ∈ o.calls) : call.2.peerAddr = address := by
  have hk := Nat.lt_of_lt_of_le (h.keys call hcall) h.length_le
  have hmem : call.2 ∈ channel call.1 o.calls :=
    List.mem_filterMap.mpr ⟨call, hcall, if_pos rfl⟩
  rw [h.callsOf_eq, callsOf, List.getElem?_eq_getElem hk] at hmem
  exact feed_peerAddr _ _ _ hmem

/-- Whatever order the notifications come in, each characteristic's calls of `on_write` are those
that its own notifications lead to, and the stored count of the address grows by the number of
matched values over all characteristics, up to what SQLite can hold.  What is subscribed, or yet to
be, are the characteristics that notify or indicate. -/
theorem observe_counts (matcher : Matcher) (address : String) (services : List Service)
    {store : Store} (hfits : store.Fits) {start : Observing}
    (hstart : Observing.run (some address) services (.loaded store) = .ok start)
    (hrun : Run (Observing.step matcher) Always start es o) :
    (∀ k, channel k o.calls = callsOf address services es k) ∧
    o.handlers.map NotifyHandler.target ++ o.pending = targets services ∧
    (∀ target, target ∈ targets services ↔
      ∃ service ∈ services, ∃ char ∈ service.characteristics,
        ("notify" ∈ char.properties ∨ "indicate" ∈ char.properties) ∧
          (service.uuid, char.uuid) = target) ∧
    o.meter = (o.calls.map Prod.snd).foldl (Meter.handle matcher) (.loaded store) ∧
    o.meter.store.count address = min maxCount (store.count address +
      ∑ k ∈ Finset.range (targets services).length,
        (callsOf address services es k).countP fun write => matcher.classify write ≠ unknown) ∧
    ∀ d, d ≠ address → o.meter.store.count d = store.count d := by
  have hobserved := observed_of_run hstart hrun
  have hresumed := Meter.resumed matcher hfits (o.calls.map Prod.snd)
  have hpeer : ∀ write ∈ o.calls.map Prod.snd, write.peerAddr = address := by
    intro write hwrite
    obtain ⟨call, hcall, rfl⟩ := List.mem_map.mp hwrite
    exact hobserved.peerAddr hcall
  have hkeys : ∀ call ∈ o.calls, call.1 < (targets services).length := fun call hcall =>
    Nat.lt_of_lt_of_le (hobserved.keys call hcall) hobserved.length_le
  obtain ⟨hcount, hothers⟩ := hresumed.count_peer hfits hpeer
  rw [← hobserved.meter_eq] at hcount hothers
  refine ⟨hobserved.callsOf_eq, hobserved.subscribed, fun _ => mem_targets, hobserved.meter_eq, ?_,
    hothers⟩
  rw [hcount, countP_eq_sum_channels _ _ hkeys]
  simp only [hobserved.callsOf_eq]

end Run

/-- Two characteristics that notify and one that does not. -/
def sampleServices : List Service :=
  [⟨"s", [⟨"c", ["notify"]⟩, ⟨"r", ["read"]⟩]⟩, ⟨"t", [⟨"c", ["indicate", "read"]⟩]⟩]

/-- A value in two parts, with a value of the other characteristic between them. -/
def sampleNotifications : List ObserveEvent :=
  [.subscribed, .subscribed, .notified 0 (some 2) [1, 2], .notified 1 (some 2) [3],
    .notified 0 (some 2) [4], .ended]

theorem observe_counts_sample : ∃ o : Observing,
    o.calls.map (fun call => call.2.payload) = [[3], [1, 2, 4]] ∧
    o.handlers.map NotifyHandler.target = [("s", "c"), ("t", "c")] ∧
    o.meter.store.count "d" = min maxCount (5 + ∑ k ∈ Finset.range 2,
      (callsOf "d" sampleServices sampleNotifications k).countP fun write =>
        (Matcher.ofRules [Meter.sampleRule]).classify write ≠ unknown) ∧
    o.meter.store.count "e" = 2 := by
  have heval : ((Run.execute (Observing.step (.ofRules [Meter.sampleRule]))
      ⟨"d", targets sampleServices, [], true, [], .loaded Meter.sampleStore⟩
        sampleNotifications).any fun o =>
          decide (o.calls.map (fun call => call.2.payload) = [[3], [1, 2, 4]]) &&
            decide (o.pending = [])) = true := by
    decide +kernel
  obtain ⟨o, hrun, hdone⟩ := (Option.any_eq_true _ _).mp heval
  simp only [Bool.and_eq_true, decide_eq_true_eq] at hdone
  obtain ⟨hcalls, hpending⟩ := hdone
  obtain ⟨-, hsubscribed, -, -, hcount, hothers⟩ :=
    observe_counts _ "d" sampleServices Meter.sampleStore_fits rfl (Run.of_execute hrun)
  rw [hpending, List.append_nil] at hsubscribed
  exact ⟨o, hcalls, hsubscribed, hcount, hothers "e" (by decide)⟩

end BleUsageMeter.Gateway
