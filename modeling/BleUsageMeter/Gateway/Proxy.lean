import BleUsageMeter.Kit.Run
import BleUsageMeter.Gateway.Matcher

/-! `gateway/proxy.py`: the relay between the app and the appliance.  Calls of `forward_from_app`
interleave where they await, which is at the write to the appliance and in the coroutine of an
`async` handler.  Whatever the handler does, each call is written once, as it came, and is counted
exactly when its write returned. -/

namespace BleUsageMeter.Gateway

open Kit

/-- The arguments of `forward_from_app`. -/
structure ForwardCall where
  serviceUuid : String
  charUuid : String
  data : List UInt8
  response : Bool
deriving DecidableEq

/-- A call of the client's `write_gatt_char`. -/
structure ApplianceWrite where
  charUuid : String
  data : List UInt8
  response : Bool
deriving DecidableEq

/-- What `on_write` comes to: it returns, raises, or returns a coroutine. -/
inductive HandlerResult (κ : Type)
  | value
  | raised
  | coroutine (c : κ)
deriving DecidableEq

/-- What a coroutine comes to when it runs on: it ends, raises, or suspends. -/
inductive Awaited (κ : Type)
  | finished
  | raised
  | suspended (c : κ)
deriving DecidableEq

/-- An `on_write` handler with its state and its coroutines. -/
structure WriteHandler (α κ : Type) where
  call : α → GattWrite → α × HandlerResult κ
  resume : α → κ → α × Awaited κ

/-- Where a call of `forward_from_app` is: it awaits the write, or its handler's coroutine, or it
has returned or raised. -/
inductive ForwardStage (κ : Type)
  | forwarding
  | metering (c : κ)
  | returned
  | raised
deriving DecidableEq

/-- A proxy with its calls, what it has sent to either side, and the calls of its handler, each
under the number of the call that made it. -/
structure TransparentProxy (α κ : Type) where
  address : String
  matcher : Matcher
  connected : Bool
  calls : List (ForwardCall × ForwardStage κ)
  writes : List ApplianceWrite
  notified : List (String × List UInt8)
  handled : List (Nat × GattWrite)
  metering : α

/-- What can happen next.  The number of a call is its place among the calls. -/
inductive ProxyEvent
  | forwardFromApp (call : ForwardCall)
  | writeReturned (i : Nat)
  | writeRaised (i : Nat)
  | resume (i : Nat)
  | forwardFromAppliance (charUuid : String) (data : List UInt8)
deriving DecidableEq

namespace ForwardCall

/-- What the call writes to the appliance. -/
def write (call : ForwardCall) : ApplianceWrite := ⟨call.charUuid, call.data, call.response⟩

/-- What the call hands to the handler. -/
def gattWrite (call : ForwardCall) (address : String) : GattWrite :=
  ⟨address, call.serviceUuid, call.charUuid, call.data⟩

end ForwardCall

namespace WriteHandler

variable {α κ : Type} (handler : WriteHandler α κ)

/-- `await` of a coroutine, up to where it suspends.  The exceptions of a handler are logged. -/
def await (metering : α) (c : κ) : α × ForwardStage κ :=
  match handler.resume metering c with
  | (metering, .finished) => (metering, .returned)
  | (metering, .raised) => (metering, .returned)
  | (metering, .suspended c) => (metering, .metering c)

/-- The counting of a write that was forwarded, up to where it suspends. -/
def count (metering : α) (write : GattWrite) : α × ForwardStage κ :=
  match handler.call metering write with
  | (metering, .value) => (metering, .returned)
  | (metering, .raised) => (metering, .returned)
  | (metering, .coroutine c) => handler.await metering c

/-- The coroutines of the handler run to their end at once. -/
def NeverSuspends : Prop := ∀ metering c rest, (handler.resume metering c).2 ≠ .suspended rest

end WriteHandler

/-- `forward_from_appliance`. -/
def forwardFromAppliance (data : List UInt8) : List UInt8 := data

namespace TransparentProxy

variable {α κ : Type}

/-- A connected proxy. -/
def connect (address : String) (matcher : Matcher) (metering : α) : TransparentProxy α κ :=
  ⟨address, matcher, true, [], [], [], [], metering⟩

def step (handler : WriteHandler α κ) (p : TransparentProxy α κ) :
    ProxyEvent → Option (TransparentProxy α κ)
  | .forwardFromApp call =>
    if p.connected then
      some { p with calls := p.calls ++ [(call, .forwarding)], writes := p.writes ++ [call.write] }
    else some { p with calls := p.calls ++ [(call, .raised)] }
  | .writeReturned i =>
    match p.calls[i]? with
    | some (call, .forwarding) =>
      let write := call.gattWrite p.address
      let (metering, stage) := handler.count p.metering write
      some { p with
        calls := p.calls.set i (call, stage), handled := p.handled ++ [(i, write)], metering }
    | _ => none
  | .writeRaised i =>
    match p.calls[i]? with
    | some (call, .forwarding) => some { p with calls := p.calls.set i (call, .raised) }
    | _ => none
  | .resume i =>
    match p.calls[i]? with
    | some (call, .metering c) =>
      let (metering, stage) := handler.await p.metering c
      some { p with calls := p.calls.set i (call, stage), metering }
    | _ => none
  | .forwardFromAppliance charUuid data =>
    some { p with notified := p.notified ++ [(charUuid, forwardFromAppliance data)] }

/-- What call `i` has handed to the handler. -/
def handledBy (p : TransparentProxy α κ) (i : Nat) : List GattWrite :=
  (p.handled.filter (·.1 = i)).map Prod.snd

/-- The calls of `forward_from_app` among some events, in their order. -/
def started (es : List ProxyEvent) : List ForwardCall :=
  es.filterMap fun
    | .forwardFromApp call => some call
    | _ => none

/-- The notifications among some events, in their order. -/
def received (es : List ProxyEvent) : List (String × List UInt8) :=
  es.filterMap fun
    | .forwardFromAppliance charUuid data => some (charUuid, data)
    | _ => none

/-- After the events `es` each call has been written once, as it came, and handed to the handler
once if its write returned and not at all if it raised or is in progress. -/
structure ForwardsThenCounts (es : List ProxyEvent) (p : TransparentProxy α κ) : Prop where
  writes : p.writes = (started es).map ForwardCall.write
  notified : p.notified = received es
  counted : ∀ i call, (started es)[i]? = some call → .writeReturned i ∈ es →
    p.handledBy i = [call.gattWrite p.address]
  uncounted : ∀ i, .writeReturned i ∉ es → p.handledBy i = []
  failed : ∀ i, .writeRaised i ∈ es → p.handledBy i = []
  raises : ∀ i call stage, p.calls[i]? = some (call, stage) →
    (stage = .raised ↔ .writeRaised i ∈ es)

end TransparentProxy

/-- The write of a call at this stage has returned. -/
def ForwardStage.written {κ : Type} : ForwardStage κ → Bool
  | .forwarding => false
  | .metering _ => true
  | .returned => true
  | .raised => false

@[simp] theorem ForwardStage.forwarding_written {κ : Type} :
    (forwarding : ForwardStage κ).written = false := rfl

@[simp] theorem ForwardStage.metering_written {κ : Type} (c : κ) :
    (metering c).written = true := rfl

@[simp] theorem ForwardStage.raised_written {κ : Type} :
    (raised : ForwardStage κ).written = false := rfl

theorem ForwardStage.ne_raised {κ : Type} {stage : ForwardStage κ} (h : stage.written = true) :
    stage ≠ .raised := by
  rintro rfl
  cases h

namespace WriteHandler

variable {α κ : Type} {handler : WriteHandler α κ}

theorem await_written (metering : α) (c : κ) : (handler.await metering c).2.written = true := by
  unfold await
  split <;> rfl

theorem count_written (metering : α) (write : GattWrite) :
    (handler.count metering write).2.written = true := by
  unfold count
  split
  · rfl
  · rfl
  · exact await_written _ _

theorem NeverSuspends.await (h : handler.NeverSuspends) (metering : α) (c : κ) :
    (handler.await metering c).2 = .returned := by
  unfold WriteHandler.await
  split
  · rfl
  · rfl
  · rename_i rest hresume
    exact absurd (congrArg Prod.snd hresume) (h metering c rest)

theorem NeverSuspends.count (h : handler.NeverSuspends) (metering : α) (write : GattWrite) :
    (handler.count metering write).2 = .returned := by
  unfold WriteHandler.count
  split
  · rfl
  · rfl
  · exact h.await _ _

end WriteHandler

namespace TransparentProxy

variable {α κ : Type} {handler : WriteHandler α κ} {p q : TransparentProxy α κ}
  {es : List ProxyEvent} {e : ProxyEvent} {i : Nat}

/-- The invariant of a proxy and the events that led to it. -/
structure Relayed (es : List ProxyEvent) (p : TransparentProxy α κ) : Prop where
  connected : p.connected = true
  calls : p.calls.map Prod.fst = started es
  writes : p.writes = (started es).map ForwardCall.write
  notified : p.notified = received es
  stages : ∀ i call stage, p.calls[i]? = some (call, stage) →
    (.writeReturned i ∈ es ↔ stage.written) ∧ (.writeRaised i ∈ es ↔ stage = .raised) ∧
      p.handledBy i = if stage.written then [call.gattWrite p.address] else []
  absent : ∀ i, p.calls.length ≤ i →
    .writeReturned i ∉ es ∧ .writeRaised i ∉ es ∧ p.handledBy i = []

theorem handledBy_append (p : TransparentProxy α κ) (writes : List GattWrite) (i j : Nat) :
    ({ p with handled := p.handled ++ writes.map (i, ·) }).handledBy j =
      p.handledBy j ++ if j = i then writes else [] := by
  unfold handledBy
  rw [List.filter_append, List.map_append]
  by_cases hj : j = i
  · simp [hj, List.filter_map, Function.comp_def]
  · simp [hj, Ne.symm hj, List.filter_map, Function.comp_def]

theorem Relayed.begin (h : Relayed es p) (call : ForwardCall) :
    Relayed (es ++ [.forwardFromApp call])
      { p with calls := p.calls ++ [(call, .forwarding)], writes := p.writes ++ [call.write] } := by
  have hstarted : started (es ++ [.forwardFromApp call]) = started es ++ [call] := by
    simp [started]
  have hreceived : received (es ++ [.forwardFromApp call]) = received es := by simp [received]
  refine ⟨h.connected, ?_, ?_, ?_, ?_, ?_⟩
  · rw [hstarted, ← h.calls, List.map_append]
    rfl
  · rw [hstarted, h.writes, List.map_append]
    rfl
  · rw [hreceived, ← h.notified]
  · intro i call' stage hi
    simp only [List.mem_append, List.mem_singleton, reduceCtorEq, or_false]
    rcases Nat.lt_or_ge i p.calls.length with hlt | hge
    · rw [List.getElem?_append_left hlt] at hi
      exact h.stages i call' stage hi
    · obtain ⟨hreturned, hraised, hhandled⟩ := h.absent i hge
      rw [List.getElem?_append_right hge, List.getElem?_singleton] at hi
      split at hi
      · cases hi
        exact ⟨iff_of_false hreturned (by simp),
          iff_of_false hraised (by simp), hhandled⟩
      · cases hi
  · intro i hi
    simp only [List.length_append, List.length_singleton] at hi
    simp only [List.mem_append, List.mem_singleton, reduceCtorEq, or_false]
    exact h.absent i (by omega)

theorem Relayed.progress (h : Relayed es p) {call : ForwardCall} {old : ForwardStage κ}
    (he : e = .writeReturned i ∨ e = .writeRaised i ∨ e = .resume i)
    (hcall : p.calls[i]? = some (call, old)) (new : ForwardStage κ) (writes : List GattWrite)
    (metering : α)
    (hreturned : .writeReturned i ∈ es ++ [e] ↔ new.written)
    (hraised : .writeRaised i ∈ es ++ [e] ↔ new = .raised)
    (hhandled : p.handledBy i ++ writes =
      if new.written then [call.gattWrite p.address] else []) :
    Relayed (es ++ [e])
      { p with calls := p.calls.set i (call, new), handled := p.handled ++ writes.map (i, ·),
               metering } := by
  have hlt : i < p.calls.length := (List.getElem?_eq_some_iff.mp hcall).1
  have hstarted : started (es ++ [e]) = started es := by
    rcases he with rfl | rfl | rfl <;> simp [started]
  have hreceived : received (es ++ [e]) = received es := by
    rcases he with rfl | rfl | rfl <;> simp [received]
  have hother : ∀ j, j ≠ i → (.writeReturned j ∈ es ++ [e] ↔ .writeReturned j ∈ es) ∧
      (.writeRaised j ∈ es ++ [e] ↔ .writeRaised j ∈ es) := by
    intro j hj
    rcases he with rfl | rfl | rfl <;> simp [hj]
  have happend : ∀ j, handledBy
      { p with calls := p.calls.set i (call, new), handled := p.handled ++ writes.map (i, ·),
               metering } j = p.handledBy j ++ if j = i then writes else [] :=
    handledBy_append p writes i
  refine ⟨h.connected, ?_, ?_, ?_, ?_, ?_⟩
  · rw [hstarted, ← h.calls, List.map_set]
    apply List.ext_getElem?
    intro j
    by_cases hji : j = i
    · subst hji
      simp [(List.getElem?_eq_some_iff.mp hcall).2, hlt]
    · rw [List.getElem?_set_ne (Ne.symm hji)]
  · rw [hstarted, h.writes]
  · rw [hreceived, ← h.notified]
  · intro j call' stage hj
    rw [happend]
    by_cases hji : j = i
    · subst hji
      rw [List.getElem?_set_self hlt] at hj
      cases hj
      rw [if_pos rfl]
      exact ⟨hreturned, hraised, hhandled⟩
    · rw [List.getElem?_set_ne (Ne.symm hji)] at hj
      rw [if_neg hji, List.append_nil, (hother j hji).1, (hother j hji).2]
      exact h.stages j call' stage hj
  · intro j hj
    rw [List.length_set] at hj
    have hji : j ≠ i := by omega
    rw [happend, if_neg hji, List.append_nil, (hother j hji).1, (hother j hji).2]
    exact h.absent j hj

theorem connect_relayed (address : String) (matcher : Matcher) (metering : α) :
    Relayed [] (connect address matcher metering : TransparentProxy α κ) where
  connected := rfl
  calls := rfl
  writes := rfl
  notified := rfl
  stages i call stage hi := by cases hi
  absent i _ := ⟨List.not_mem_nil, List.not_mem_nil, rfl⟩

theorem step_writeReturned {call : ForwardCall} (h : p.calls[i]? = some (call, .forwarding)) :
    p.step handler (.writeReturned i) = some { p with
      calls := p.calls.set i (call, (handler.count p.metering (call.gattWrite p.address)).2)
      handled := p.handled ++ [(i, call.gattWrite p.address)]
      metering := (handler.count p.metering (call.gattWrite p.address)).1 } := by
  simp only [step, h]

theorem step_writeRaised {call : ForwardCall} (h : p.calls[i]? = some (call, .forwarding)) :
    p.step handler (.writeRaised i) = some { p with calls := p.calls.set i (call, .raised) } := by
  simp only [step, h]

theorem step_call_cases (hstep : p.step handler e = some q) :
    (∃ call, e = .forwardFromApp call) ∨
    (∃ charUuid data, e = .forwardFromAppliance charUuid data) ∨
    (∃ i call, e = .writeReturned i ∧ p.calls[i]? = some (call, .forwarding) ∧
      q = { p with
        calls := p.calls.set i (call, (handler.count p.metering (call.gattWrite p.address)).2)
        handled := p.handled ++ [(i, call.gattWrite p.address)]
        metering := (handler.count p.metering (call.gattWrite p.address)).1 }) ∨
    (∃ i call, e = .writeRaised i ∧ p.calls[i]? = some (call, .forwarding) ∧
      q = { p with calls := p.calls.set i (call, .raised) }) ∨
    (∃ i call c, e = .resume i ∧ p.calls[i]? = some (call, .metering c) ∧
      q = { p with
        calls := p.calls.set i (call, (handler.await p.metering c).2)
        metering := (handler.await p.metering c).1 }) := by
  cases e with
  | forwardFromApp call => exact .inl ⟨call, rfl⟩
  | forwardFromAppliance charUuid data => exact .inr (.inl ⟨charUuid, data, rfl⟩)
  | writeReturned i =>
    simp only [step] at hstep
    split at hstep
    · rename_i call hcall
      exact .inr (.inr (.inl ⟨i, call, rfl, hcall, (Option.some.inj hstep).symm⟩))
    · cases hstep
  | writeRaised i =>
    simp only [step] at hstep
    split at hstep
    · rename_i call hcall
      exact .inr (.inr (.inr (.inl ⟨i, call, rfl, hcall, (Option.some.inj hstep).symm⟩)))
    · cases hstep
  | resume i =>
    simp only [step] at hstep
    split at hstep
    · rename_i call c hcall
      exact .inr (.inr (.inr (.inr ⟨i, call, c, rfl, hcall, (Option.some.inj hstep).symm⟩)))
    · cases hstep

theorem step_relayed (h : Relayed es p) (hstep : p.step handler e = some q) :
    Relayed (es ++ [e]) q := by
  rcases step_call_cases hstep with ⟨call, rfl⟩ | ⟨charUuid, data, rfl⟩ |
    ⟨i, call, rfl, hcall, rfl⟩ | ⟨i, call, rfl, hcall, rfl⟩ | ⟨i, call, c, rfl, hcall, rfl⟩
  · rw [step, if_pos h.connected] at hstep
    obtain rfl := Option.some.inj hstep
    exact h.begin call
  · obtain rfl := Option.some.inj hstep
    refine ⟨h.connected, ?_, ?_, ?_, ?_, ?_⟩
    · simpa [started] using h.calls
    · simpa [started] using h.writes
    · simp [received, h.notified, forwardFromAppliance]
    · intro i call stage hi
      simp only [List.mem_append, List.mem_singleton, reduceCtorEq, or_false]
      exact h.stages i call stage hi
    · intro i hi
      simp only [List.mem_append, List.mem_singleton, reduceCtorEq, or_false]
      exact h.absent i hi
  · obtain ⟨hreturned, hraised, hhandled⟩ := h.stages i call _ hcall
    have hwritten := handler.count_written p.metering (call.gattWrite p.address)
    apply h.progress (.inl rfl) hcall _ [call.gattWrite p.address]
    · exact iff_of_true (by simp) hwritten
    · rw [List.mem_append, hraised]
      exact iff_of_false (by simp) (ForwardStage.ne_raised hwritten)
    · rw [hhandled, if_pos hwritten]
      rfl
  · obtain ⟨hreturned, hraised, hhandled⟩ := h.stages i call _ hcall
    have := h.progress (.inr (.inl rfl)) hcall .raised [] p.metering
      (by simpa using hreturned) (by simp)
      (by simpa using hhandled)
    simpa using this
  · obtain ⟨hreturned, hraised, hhandled⟩ := h.stages i call _ hcall
    have hwritten := handler.await_written p.metering c
    have := h.progress (.inr (.inr rfl)) hcall (handler.await p.metering c).2 []
      (handler.await p.metering c).1
      (by simpa [hwritten] using hreturned)
      (by
        rw [List.mem_append, hraised]
        exact iff_of_false (by simp) (ForwardStage.ne_raised hwritten))
      (by simpa [hwritten] using hhandled)
    simpa using this

theorem Relayed.forwardsThenCounts (h : Relayed es p) : ForwardsThenCounts es p where
  writes := h.writes
  notified := h.notified
  counted i call hstarted hreturned := by
    rw [← h.calls, List.getElem?_map, Option.map_eq_some_iff] at hstarted
    obtain ⟨⟨_, stage⟩, hi, rfl⟩ := hstarted
    obtain ⟨hwritten, -, hhandled⟩ := h.stages i _ stage hi
    rw [hhandled, if_pos (hwritten.mp hreturned)]
  uncounted i hreturned := by
    cases hi : p.calls[i]? with
    | none => exact (h.absent i (List.getElem?_eq_none_iff.mp hi)).2.2
    | some entry =>
      obtain ⟨hwritten, -, hhandled⟩ := h.stages i entry.1 entry.2 hi
      rw [hhandled, if_neg (mt hwritten.mpr hreturned)]
  failed i hraised := by
    cases hi : p.calls[i]? with
    | none => exact (h.absent i (List.getElem?_eq_none_iff.mp hi)).2.2
    | some entry =>
      obtain ⟨-, hstage, hhandled⟩ := h.stages i entry.1 entry.2 hi
      rw [hhandled, hstage.mp hraised]
      rfl
  raises i call stage hi := (h.stages i call stage hi).2.1.symm

theorem relayed_of_run {s : TransparentProxy α κ} (hs : Relayed [] s)
    (h : Run (step handler) Always s es p) : Relayed es p :=
  h.traces hs fun _ _ _ _ ht _ hstep => step_relayed ht hstep

end TransparentProxy

/-! ### What the handler cannot change -/

/-- A stage without the coroutine. -/
def ForwardStage.view {κ : Type} : ForwardStage κ → ForwardStage Unit
  | .forwarding => .forwarding
  | .metering _ => .metering ()
  | .returned => .returned
  | .raised => .raised

namespace TransparentProxy

/-- The calls and where they are. -/
def progress {α κ : Type} (p : TransparentProxy α κ) : List (ForwardCall × ForwardStage Unit) :=
  p.calls.map fun c => (c.1, c.2.view)

variable {α β κ μ : Type} {handler : WriteHandler α κ} {other : WriteHandler β μ}
  {p s : TransparentProxy α κ} {q : TransparentProxy β μ} {es : List ProxyEvent} {e : ProxyEvent}

/-- Neither side of the link, nor the code that calls, can tell the proxies apart, and no call is
in a coroutine. -/
structure SameTraffic (p : TransparentProxy α κ) (q : TransparentProxy β μ) : Prop where
  connected : p.connected = q.connected
  writes : p.writes = q.writes
  notified : p.notified = q.notified
  progress : p.progress = q.progress
  idle : ∀ (i : Nat) (call : ForwardCall) (c : κ), p.calls[i]? ≠ some (call, .metering c)

theorem SameTraffic.forwarding (h : SameTraffic p q) {i : Nat} {call : ForwardCall}
    (hcall : p.calls[i]? = some (call, .forwarding)) : q.calls[i]? = some (call, .forwarding) := by
  have hview : q.progress[i]? = some (call, .forwarding) := by
    rw [← h.progress, TransparentProxy.progress, List.getElem?_map, hcall]
    rfl
  rw [TransparentProxy.progress, List.getElem?_map, Option.map_eq_some_iff] at hview
  obtain ⟨⟨_, stage⟩, hi, hview⟩ := hview
  obtain ⟨rfl, hstage⟩ := Prod.mk.inj hview
  cases stage with
  | forwarding => exact hi
  | metering c => cases hstage
  | returned => cases hstage
  | raised => cases hstage

/-- A call ends in the same way for both. -/
theorem SameTraffic.set (h : SameTraffic p q) (i : Nat) (call : ForwardCall)
    {stage : ForwardStage κ} {stage' : ForwardStage μ} (hstage : stage.view = stage'.view)
    (hidle : ∀ c, stage ≠ .metering c) (handled handled' : List (Nat × GattWrite)) (metering : α)
    (metering' : β) :
    SameTraffic { p with calls := p.calls.set i (call, stage), handled := handled, metering }
      { q with calls := q.calls.set i (call, stage'), handled := handled',
               metering := metering' } where
  connected := h.connected
  writes := h.writes
  notified := h.notified
  progress := by
    have hprogress := h.progress
    unfold TransparentProxy.progress at hprogress ⊢
    simp only [List.map_set, hprogress, hstage]
  idle j call' c hj := by
    rw [List.getElem?_set] at hj
    split at hj
    · split at hj
      · cases hj
        exact hidle c rfl
      · cases hj
    · exact h.idle j call' c hj

theorem SameTraffic.begin (h : SameTraffic p q) (call : ForwardCall)
    (stage : ForwardStage κ) (stage' : ForwardStage μ) (hstage : stage.view = stage'.view)
    (hidle : ∀ c, stage ≠ .metering c) (writes : List ApplianceWrite) :
    SameTraffic { p with calls := p.calls ++ [(call, stage)], writes := p.writes ++ writes }
      { q with calls := q.calls ++ [(call, stage')], writes := q.writes ++ writes } where
  connected := h.connected
  writes := by rw [h.writes]
  notified := h.notified
  progress := by
    have hprogress := h.progress
    unfold TransparentProxy.progress at hprogress ⊢
    simp only [List.map_append, hprogress, List.map_cons, hstage, List.map_nil]
  idle j call' c hj := by
    rcases Nat.lt_or_ge j p.calls.length with hlt | hge
    · rw [List.getElem?_append_left hlt] at hj
      exact h.idle j call' c hj
    · rw [List.getElem?_append_right hge, List.getElem?_singleton] at hj
      split at hj
      · cases hj
        exact hidle c rfl
      · cases hj

/-- What one proxy does the other does, when neither handler suspends. -/
theorem SameTraffic.step (hhandler : handler.NeverSuspends) (hother : other.NeverSuspends)
    (h : SameTraffic p q) (hstep : p.step handler e = some s) :
    ∃ t, q.step other e = some t ∧ SameTraffic s t := by
  rcases step_call_cases hstep with ⟨call, rfl⟩ | ⟨charUuid, data, rfl⟩ |
    ⟨i, call, rfl, hcall, rfl⟩ | ⟨i, call, rfl, hcall, rfl⟩ | ⟨i, call, c, rfl, hcall, rfl⟩
  · rw [TransparentProxy.step] at hstep ⊢
    by_cases hconnected : p.connected
    · rw [if_pos hconnected] at hstep
      rw [if_pos (h.connected ▸ hconnected)]
      obtain rfl := Option.some.inj hstep
      exact ⟨_, rfl, h.begin call .forwarding .forwarding rfl (by simp) [call.write]⟩
    · rw [if_neg hconnected] at hstep
      rw [if_neg (h.connected ▸ hconnected)]
      obtain rfl := Option.some.inj hstep
      have := h.begin call .raised .raised rfl (by simp) []
      simp only [List.append_nil] at this
      exact ⟨_, rfl, this⟩
  · obtain rfl := Option.some.inj hstep
    refine ⟨_, rfl, h.connected, h.writes, ?_, h.progress, h.idle⟩
    rw [h.notified]
  · have hreturned := hhandler.count p.metering (call.gattWrite p.address)
    have hreturned' := hother.count q.metering (call.gattWrite q.address)
    refine ⟨_, step_writeReturned (h.forwarding hcall), ?_⟩
    apply h.set
    · rw [hreturned, hreturned']
      rfl
    · intro c hc
      rw [hreturned] at hc
      cases hc
  · refine ⟨_, step_writeRaised (h.forwarding hcall), ?_⟩
    exact h.set i call rfl (by simp) p.handled q.handled p.metering q.metering
  · exact absurd hcall (h.idle i call c)

/-- A handler that always raises. -/
def failing : WriteHandler Unit Empty where
  call _ _ := ((), .raised)
  resume _ _ := ((), .finished)

end TransparentProxy

end BleUsageMeter.Gateway
