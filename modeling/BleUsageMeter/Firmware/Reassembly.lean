import Mathlib.Data.List.Forall2
import BleUsageMeter.Kit.Run
import BleUsageMeter.Kit.Span
import BleUsageMeter.Firmware.Observer

/-! What the observer emits.  Fragments of several connections, disconnects and clock readings come
in any order; every value that is emitted is the concatenation of all fragments of one attribute in
one piece of this history, and no fragment is used for two values. -/

namespace BleUsageMeter.Firmware

open Kit

inductive ObserverEvent
  | fragment (f : Fragment)
  | disconnect (connHandle : UInt16)
  | advance (us : Nat)
deriving DecidableEq

/-- An observer and the values that it has emitted, the oldest first. -/
structure Observing where
  observer : Observer
  emitted : List ObservedWrite

namespace Observing

def step (s : Observing) : ObserverEvent → Option Observing
  | .fragment f =>
    let (observer, write) := s.observer.onAttFragment f
    some ⟨observer, s.emitted ++ write.toList⟩
  | .disconnect connHandle => some { s with observer := s.observer.disconnect connHandle }
  | .advance us => some { s with observer := { s.observer with now := s.observer.now + us } }

/-- An observer that has just started. -/
def start (o : Observer) : Observing := ⟨o.start, []⟩

end Observing

/-! ### Pieces of the history -/

/-- The handles of a connection and an attribute. -/
structure AttKey where
  connHandle : UInt16
  attrHandle : UInt16
deriving DecidableEq

def Fragment.key (f : Fragment) : AttKey := ⟨f.connHandle, f.attrHandle⟩

def Reassembly.key (r : Reassembly) : AttKey := ⟨r.connHandle, r.attrHandle⟩

/-- The fragments of a key, in the order in which they came. -/
def fragmentsOf (key : AttKey) (events : List ObserverEvent) : List Fragment :=
  events.filterMap fun
    | .fragment f => if f.key = key then some f else none
    | _ => none

/-- Each fragment begins where the ones before it end, and the first at `offset`. -/
def Contiguous (offset : Nat) : List Fragment → Prop
  | [] => True
  | f :: rest => f.offset.toNat = offset ∧ Contiguous (offset + f.data.length) rest

/-- The bytes of some fragments. -/
def payloadOf (fragments : List Fragment) : List UInt8 := fragments.flatMap (·.data)

/-- A piece of history begins with the fragment `first`, has no disconnect of its connection, and
the fragments of its key in it follow each other from offset 0 and are the bytes `buf`. -/
structure Carries (events : List ObserverEvent) (key : AttKey) (first : Fragment)
    (buf : List UInt8) : Prop where
  starts : events.head? = some (.fragment first)
  first_key : first.key = key
  connected : .disconnect key.connHandle ∉ events
  contiguous : Contiguous 0 (fragmentsOf key events)
  buf : buf = payloadOf (fragmentsOf key events)

/-- A piece of history carries a value, comes to an end with its final fragment, and the value has
the peer, the service and the characteristic of the first. -/
def Yields (events : List ObserverEvent) (key : AttKey) (w : ObservedWrite) : Prop :=
  ∃ first last, Carries events key first w.payload ∧ w.peerAddr = fmtAddr first.peer ∧
    w.service = first.service ∧ w.characteristic = first.characteristic ∧
    events.getLast? = some (.fragment last) ∧ last.key = key ∧ last.isFinal = true

/-- Where a value comes from. -/
structure Origin extends Span where
  key : AttKey

/-- The event at position `i` is a fragment that the value is made of. -/
def Origin.Uses (history : List ObserverEvent) (p : Origin) (i : Nat) : Prop :=
  p.Covers i ∧ ∃ f, history[i]? = some (.fragment f) ∧ f.key = p.key

def Origin.Explains (history : List ObserverEvent) (p : Origin) (w : ObservedWrite) : Prop :=
  p.start < p.stop ∧ p.stop ≤ history.length ∧ Yields (p.toSpan.of history) p.key w

/-- What holds of the pool and the emitted values, after some events. -/
structure Observing.Sound (history : List ObserverEvent) (s : Observing) : Prop where
  unique : ∀ i j (key : AttKey), (s.observer.reasm i).Holds key.connHandle key.attrHandle →
    (s.observer.reasm j).Holds key.connHandle key.attrHandle → i = j
  bounded : ∀ i, (s.observer.reasm i).buf.length ≤ kMaxAttPayload
  emitted : ∃ origins : List Origin, List.Forall₂ (Origin.Explains history) origins s.emitted ∧
    origins.Pairwise fun p q => ∀ i, ¬(p.Uses history i ∧ q.Uses history i)

section Pieces

variable {events : List ObserverEvent} {key : AttKey} {first f : Fragment} {buf : List UInt8}
  {e : ObserverEvent}

theorem fragmentsOf_concat_other (h : ∀ f, e = .fragment f → f.key ≠ key) :
    fragmentsOf key (events ++ [e]) = fragmentsOf key events := by
  rw [fragmentsOf, List.filterMap_append]
  cases e with
  | fragment f =>
    have hne : f.key ≠ key := h f rfl
    simp [fragmentsOf, hne]
  | disconnect connHandle => simp [fragmentsOf]
  | advance us => simp [fragmentsOf]

theorem fragmentsOf_concat (h : f.key = key) :
    fragmentsOf key (events ++ [.fragment f]) = fragmentsOf key events ++ [f] := by
  simp [fragmentsOf, List.filterMap_append, h]

theorem contiguous_concat {offset : Nat} {fragments : List Fragment} :
    Contiguous offset (fragments ++ [f]) ↔
      Contiguous offset fragments ∧ f.offset.toNat = offset + (payloadOf fragments).length := by
  induction fragments generalizing offset with
  | nil => simp [Contiguous, payloadOf]
  | cons g rest ih =>
    simp only [List.cons_append, Contiguous, ih, payloadOf, List.flatMap_cons, List.length_append]
    constructor
    · rintro ⟨hg, hrest, hf⟩
      exact ⟨⟨hg, hrest⟩, by omega⟩
    · rintro ⟨⟨hg, hrest⟩, hf⟩
      exact ⟨hg, hrest, by omega⟩

/-- An event that is no fragment of the key and no disconnect of its connection. -/
theorem Carries.other (h : Carries events key first buf) (hne : ∀ f, e = .fragment f → f.key ≠ key)
    (hconnected : e ≠ .disconnect key.connHandle) : Carries (events ++ [e]) key first buf where
  starts := by simp [List.head?_append, h.starts]
  first_key := h.first_key
  connected := by simpa [h.connected] using fun he => hconnected he.symm
  contiguous := by rw [fragmentsOf_concat_other hne]; exact h.contiguous
  buf := by rw [fragmentsOf_concat_other hne]; exact h.buf

theorem Carries.extend (h : Carries events key first buf) (hkey : f.key = key)
    (hoffset : f.offset.toNat = buf.length) :
    Carries (events ++ [.fragment f]) key first (buf ++ f.data) where
  starts := by simp [List.head?_append, h.starts]
  first_key := h.first_key
  connected := by simpa using h.connected
  contiguous := by
    rw [fragmentsOf_concat hkey, contiguous_concat, ← h.buf]
    exact ⟨h.contiguous, by omega⟩
  buf := by
    rw [fragmentsOf_concat hkey, payloadOf, List.flatMap_append, h.buf]
    simp [payloadOf]

theorem Carries.single (hoffset : f.offset = 0) : Carries [.fragment f] f.key f f.data where
  starts := rfl
  first_key := rfl
  connected := by simp
  contiguous := by simp [fragmentsOf, Contiguous, hoffset]
  buf := by simp [fragmentsOf, payloadOf]

end Pieces

/-! ### Slots and their runs -/

/-- The event is no fragment of the key and no disconnect of its connection. -/
def ObserverEvent.Spares (e : ObserverEvent) (key : AttKey) : Prop :=
  (∀ f, e = .fragment f → f.key ≠ key) ∧ e ≠ .disconnect key.connHandle

/-- The slot holds the run that began at position `start` of the history. -/
structure Reassembly.Since (r : Reassembly) (history : List ObserverEvent) (start : Nat) :
    Prop where
  lt : start < history.length
  carries : ∃ first, Carries (Span.of history ⟨start, history.length⟩) r.key first r.buf ∧
    r.peer = first.peer ∧ r.service = first.service ∧ r.characteristic = first.characteristic

section Slots

variable {history : List ObserverEvent} {r : Reassembly} {f : Fragment} {start : Nat} {now : Int}

theorem Reassembly.Since.other (h : r.Since history start) {e : ObserverEvent}
    (he : e.Spares r.key) : r.Since (history ++ [e]) start := by
  obtain ⟨hlt, first, hcarries, hfields⟩ := h
  refine ⟨by simp; omega, first, ?_, hfields⟩
  rw [List.length_append, List.length_singleton, Span.of_concat hlt.le]
  exact hcarries.other he.1 he.2

theorem Reassembly.Since.append (h : r.Since history start) (hkey : f.key = r.key)
    (hoffset : f.offset.toNat = r.buf.length) (now : Int) :
    (r.append f now).Since (history ++ [.fragment f]) start := by
  obtain ⟨hlt, first, hcarries, hfields⟩ := h
  refine ⟨by simp; omega, first, ?_, hfields⟩
  rw [List.length_append, List.length_singleton, Span.of_concat hlt.le]
  exact hcarries.extend hkey hoffset

theorem Reassembly.begin_since (r : Reassembly) (hoffset : f.offset = 0) (now : Int) :
    ((r.begin f now).append f now).Since (history ++ [.fragment f]) history.length := by
  refine ⟨by simp, f, ?_, rfl, rfl, rfl⟩
  rw [List.length_append, List.length_singleton, Span.of_last]
  exact .single hoffset

/-- The final fragment of a run completes a value. -/
theorem Reassembly.Since.explains (h : r.Since (history ++ [.fragment f]) start)
    (hkey : f.key = r.key) (hfinal : f.isFinal = true) :
    Origin.Explains (history ++ [.fragment f]) ⟨⟨start, history.length + 1⟩, r.key⟩ r.write := by
  obtain ⟨hlt, first, hcarries, hpeer, hservice, hcharacteristic⟩ := h
  rw [List.length_append, List.length_singleton] at hlt hcarries
  refine ⟨hlt, by simp, first, f, hcarries, congrArg fmtAddr hpeer, hservice, hcharacteristic, ?_,
    hkey, hfinal⟩
  show (Span.of (history ++ [.fragment f]) ⟨start, history.length + 1⟩).getLast? = _
  rw [Span.of_concat (Nat.le_of_lt_succ hlt), List.getLast?_concat]

theorem Origin.Explains.grow {p : Origin} {w : ObservedWrite} (h : p.Explains history w)
    (e : ObserverEvent) : p.Explains (history ++ [e]) w := by
  obtain ⟨hlt, hle, hyields⟩ := h
  exact ⟨hlt, by simp; omega, by rw [Span.of_append hle]; exact hyields⟩

end Slots

/-- The state of the pool, and where the emitted values come from. -/
structure Tracked (history : List ObserverEvent) (origins : List Origin)
    (reasm : Fin kMaxReassembly → Reassembly) (emitted : List ObservedWrite) : Prop where
  distinct : ∀ i j, (reasm i).inUse = true → (reasm j).inUse = true →
    (reasm i).key = (reasm j).key → i = j
  bounded : ∀ i, (reasm i).buf.length ≤ kMaxAttPayload
  runs : ∀ i, (reasm i).inUse = true → ∃ start, (reasm i).Since history start ∧
    ∀ p ∈ origins, p.key = (reasm i).key → p.stop ≤ start
  explained : List.Forall₂ (Origin.Explains history) origins emitted
  apart : origins.Pairwise fun p q => p.key = q.key → p.stop ≤ q.start

section Tracked

variable {history : List ObserverEvent} {origins : List Origin}
  {reasm later : Fin kMaxReassembly → Reassembly} {emitted : List ObservedWrite}
  {e : ObserverEvent} {i : Fin kMaxReassembly} {r : Reassembly}

theorem Tracked.stop_le (h : Tracked history origins reasm emitted) {p : Origin}
    (hp : p ∈ origins) : p.stop ≤ history.length := by
  have hstops : List.Forall₂ (fun p _ => p.stop ≤ history.length ∧ True) origins emitted :=
    h.explained.imp fun _ _ hexplains => ⟨hexplains.2.1, trivial⟩
  exact ((List.forall₂_and_left _ _).mp hstops).1 p hp

/-- An event after which every slot is as before and spared by the event, or free. -/
theorem Tracked.keep (h : Tracked history origins reasm emitted)
    (hslots : ∀ j, (later j = reasm j ∧ ((reasm j).inUse = true → e.Spares (reasm j).key)) ∨
      ((later j).inUse = false ∧ (later j).buf = [])) :
    Tracked (history ++ [e]) origins later emitted := by
  have hused : ∀ j, (later j).inUse = true →
      later j = reasm j ∧ (reasm j).inUse = true ∧ e.Spares (reasm j).key := by
    intro j hj
    rcases hslots j with ⟨hsame, hspares⟩ | ⟨hfree, -⟩
    · exact ⟨hsame, hsame ▸ hj, hspares (hsame ▸ hj)⟩
    · simp [hfree] at hj
  refine ⟨?_, ?_, ?_, h.explained.imp fun _ _ hp => hp.grow e, h.apart⟩
  · intro j k hj hk hkey
    obtain ⟨hsamej, hj, -⟩ := hused j hj
    obtain ⟨hsamek, hk, -⟩ := hused k hk
    exact h.distinct j k hj hk (by rw [← hsamej, ← hsamek, hkey])
  · intro j
    rcases hslots j with ⟨hsame, -⟩ | ⟨-, hempty⟩
    · rw [hsame]
      exact h.bounded j
    · simp [hempty]
  · intro j hj
    obtain ⟨hsame, hj, hspares⟩ := hused j hj
    obtain ⟨start, hsince, hstops⟩ := h.runs j hj
    rw [hsame]
    exact ⟨start, hsince.other hspares, hstops⟩

/-- A slot that takes a run of a key that no other slot holds. -/
theorem Tracked.put (h : Tracked history origins reasm emitted) {start : Nat}
    (hsince : r.Since history start) (hstops : ∀ p ∈ origins, p.key = r.key → p.stop ≤ start)
    (hbound : r.buf.length ≤ kMaxAttPayload)
    (hother : ∀ j, j ≠ i → (reasm j).inUse = true → (reasm j).key ≠ r.key) :
    Tracked history origins (Function.update reasm i r) emitted := by
  refine ⟨?_, ?_, ?_, h.explained, h.apart⟩
  · intro j k hj hk hkey
    by_cases hji : j = i <;> by_cases hki : k = i
    · rw [hji, hki]
    · subst hji
      simp only [Function.update_self, Function.update_of_ne hki] at hk hkey
      exact absurd hkey.symm (hother k hki hk)
    · subst hki
      simp only [Function.update_self, Function.update_of_ne hji] at hj hkey
      exact absurd hkey (hother j hji hj)
    · simp only [Function.update_of_ne hji, Function.update_of_ne hki] at hj hk hkey
      exact h.distinct j k hj hk hkey
  · intro j
    by_cases hji : j = i
    · rw [hji, Function.update_self]
      exact hbound
    · rw [Function.update_of_ne hji]
      exact h.bounded j
  · intro j hj
    by_cases hji : j = i
    · rw [hji, Function.update_self]
      exact ⟨start, hsince, hstops⟩
    · rw [Function.update_of_ne hji] at hj ⊢
      exact h.runs j hj

/-- A value is emitted, and no slot holds a run of its key. -/
theorem Tracked.emit (h : Tracked history origins reasm emitted) {p : Origin} {w : ObservedWrite}
    (hexplains : p.Explains history w) (hstops : ∀ q ∈ origins, q.key = p.key → q.stop ≤ p.start)
    (hother : ∀ j, (reasm j).inUse = true → (reasm j).key ≠ p.key) :
    Tracked history (origins ++ [p]) reasm (emitted ++ [w]) := by
  refine ⟨h.distinct, h.bounded, ?_, List.rel_append h.explained (.cons hexplains .nil), ?_⟩
  · intro j hj
    obtain ⟨start, hsince, hrun⟩ := h.runs j hj
    refine ⟨start, hsince, ?_⟩
    intro q hq hkey
    rcases List.mem_append.mp hq with hq | hq
    · exact hrun q hq hkey
    · obtain rfl := List.mem_singleton.mp hq
      exact absurd hkey.symm (hother j hj)
  · refine List.pairwise_append.mpr ⟨h.apart, List.pairwise_singleton _ _, ?_⟩
    intro q hq q' hq'
    obtain rfl := List.mem_singleton.mp hq'
    exact hstops q hq

end Tracked

/-! ### Soundness -/

section Soundness

variable {history : List ObserverEvent} {origins : List Origin} {o u : Observer}
  {emitted : List ObservedWrite} {i : Fin kMaxReassembly} {r : Reassembly} {f : Fragment}

theorem Reassembly.holds_iff (key : AttKey) :
    r.Holds key.connHandle key.attrHandle ↔ r.inUse = true ∧ r.key = key := by
  obtain ⟨connHandle, attrHandle⟩ := key
  simp [Holds, Reassembly.key]

theorem Tracked.distinct_slots (h : Tracked history origins o.reasm emitted) : o.Distinct := by
  intro i j connHandle attrHandle hi hj
  obtain ⟨hi, hkeyi⟩ := (Reassembly.holds_iff ⟨connHandle, attrHandle⟩).mp hi
  obtain ⟨hj, hkeyj⟩ := (Reassembly.holds_iff ⟨connHandle, attrHandle⟩).mp hj
  exact h.distinct i j hi hj (hkeyi.trans hkeyj.symm)

/-- A slot at rest is spared by the fragment, or free. -/
theorem rests_spares (h : o.Rests u f i) :
    (u.reasm i = o.reasm i ∧ ((o.reasm i).inUse = true →
      (ObserverEvent.fragment f).Spares (o.reasm i).key)) ∨
    ((u.reasm i).inUse = false ∧ (u.reasm i).buf = []) := by
  refine h.imp_left fun ⟨hsame, hholds⟩ => ⟨hsame, fun hused => ⟨?_, by simp⟩⟩
  intro g hg hkey
  obtain rfl := ObserverEvent.fragment.inj hg
  exact hholds ((Reassembly.holds_iff f.key).mpr ⟨hused, hkey.symm⟩)

/-- The run to which a fragment is added. -/
theorem Tracked.takes (h : Tracked history origins o.reasm emitted) (htakes : o.Takes f i r)
    (hoffset : f.offset.toNat = r.buf.length) :
    r.key = f.key ∧ ∃ start,
      (r.append f o.now).Since (history ++ [.fragment f]) start ∧
      ∀ p ∈ origins, p.key = r.key → p.stop ≤ start := by
  rcases htakes with ⟨hholds, rfl⟩ | ⟨-, hzero, rfl⟩
  · obtain ⟨hused, hkey⟩ := (Reassembly.holds_iff f.key).mp hholds
    obtain ⟨start, hsince, hstops⟩ := h.runs i hused
    exact ⟨hkey, start, hsince.append hkey.symm hoffset _, hstops⟩
  · exact ⟨rfl, _, Reassembly.begin_since _ hzero _, fun p hp _ => h.stop_le hp⟩

theorem Tracked.fragment (h : Tracked history origins o.reasm emitted) (f : Fragment) :
    ∃ origins', Tracked (history ++ [.fragment f]) origins' (o.onAttFragment f).1.reasm
      (emitted ++ (o.onAttFragment f).2.toList) := by
  rcases Observer.onAttFragment_cases h.distinct_slots f with
    ⟨hnone, hrests⟩ | ⟨i, r, htakes, hoffset, hfits, hrests, hsettles⟩
  · rw [hnone, Option.toList_none, List.append_nil]
    exact ⟨origins, h.keep fun j => rests_spares (hrests j)⟩
  · obtain ⟨hkey, start, hsince, hstops⟩ := h.takes htakes hoffset
    generalize hu : (o.onAttFragment f).1 = u at hrests hsettles ⊢
    -- without the run of the fragment, the other slots are as before or free
    have hrest : Tracked (history ++ [.fragment f]) origins
        (Function.update u.reasm i (r.append f o.now).release) emitted := by
      apply h.keep
      intro j
      by_cases hj : j = i
      · rw [hj, Function.update_self]
        exact .inr ⟨rfl, rfl⟩
      · rw [Function.update_of_ne hj]
        exact rests_spares (hrests j hj)
    have hother : ∀ j, j ≠ i → (u.reasm j).inUse = true → (u.reasm j).key ≠ f.key := by
      intro j hj hused
      rcases rests_spares (hrests j hj) with ⟨hsame, hspares⟩ | ⟨hfree, -⟩
      · rw [hsame] at hused ⊢
        exact fun e => (hspares hused).1 f rfl e.symm
      · simp [hfree] at hused
    rcases hsettles with ⟨-, hslot, hwrite⟩ | ⟨hfinal, hslot, hwrite⟩
    · have hput := hrest.put (i := i) hsince hstops
        (by simpa [Reassembly.append] using hfits) fun j hj hused => by
          rw [Function.update_of_ne hj] at hused ⊢
          exact fun e => hother j hj hused (e.trans hkey)
      rw [Function.update_idem, ← hslot, Function.update_eq_self] at hput
      rw [hwrite, Option.toList_none, List.append_nil]
      exact ⟨origins, hput⟩
    · rw [← hslot, Function.update_eq_self] at hrest
      rw [hwrite]
      split
      · rw [Option.toList_none, List.append_nil]
        exact ⟨origins, hrest⟩
      · refine ⟨_, hrest.emit (hsince.explains hkey.symm hfinal) hstops ?_⟩
        intro j hused hj
        by_cases hji : j = i
        · simp [hji, hslot, Reassembly.release] at hused
        · exact hother j hji hused (hj.trans hkey)

theorem Tracked.disconnect (h : Tracked history origins o.reasm emitted) (connHandle : UInt16) :
    Tracked (history ++ [.disconnect connHandle]) origins (o.disconnect connHandle).reasm
      emitted := by
  apply h.keep
  intro j
  simp only [Observer.disconnect]
  split
  · exact .inr ⟨rfl, rfl⟩
  · rename_i hother
    refine .inl ⟨rfl, fun hused => ⟨by simp, fun e => ?_⟩⟩
    exact hother ⟨hused, (ObserverEvent.disconnect.inj e).symm⟩

theorem tracked_of_run (o : Observer) {events : List ObserverEvent} {s : Observing}
    (h : Run Observing.step Always (.start o) events s) :
    ∃ origins, Tracked events origins s.observer.reasm s.emitted := by
  apply h.traces
  · refine ⟨[], ?_, fun i => Nat.zero_le _, ?_, .nil, .nil⟩
    · intro i _ hi
      cases hi
    · intro i hi
      cases hi
  · rintro history t e u ⟨origins, ht⟩ - hstep
    cases e with
    | fragment f =>
      obtain rfl := Option.some.inj hstep
      exact ht.fragment f
    | disconnect connHandle =>
      obtain rfl := Option.some.inj hstep
      exact ⟨origins, ht.disconnect connHandle⟩
    | advance us =>
      obtain rfl := Option.some.inj hstep
      exact ⟨origins, ht.keep fun j => .inl ⟨rfl, fun _ => ⟨by simp, by simp⟩⟩⟩

/-- Pieces of one key that come one after another share no fragment, nor do pieces of two keys. -/
theorem Origin.not_uses_both {history : List ObserverEvent} {p q : Origin}
    (h : p.key = q.key → p.stop ≤ q.start) (i : Nat) : ¬(p.Uses history i ∧ q.Uses history i) := by
  rintro ⟨⟨hp, hpkey⟩, ⟨hq, hqkey⟩⟩
  obtain ⟨f, hf, hfp⟩ := hpkey
  obtain ⟨g, hg, hgq⟩ := hqkey
  obtain rfl := ObserverEvent.fragment.inj (Option.some.inj (hf.symm.trans hg))
  have := h (hfp.symm.trans hgq)
  have := hp.2
  have := hq.1
  omega

/-- The observer puts together nothing but whole runs of one attribute, each once. -/
theorem sound_of_run (o : Observer) {events : List ObserverEvent} {s : Observing}
    (h : Run Observing.step Always (.start o) events s) : s.Sound events := by
  obtain ⟨origins, htracked⟩ := tracked_of_run o h
  exact ⟨fun i j key => htracked.distinct_slots i j _ _, htracked.bounded, origins,
    htracked.explained, htracked.apart.imp Origin.not_uses_both⟩

/-! ### Two connections -/

def sampleUuid : Uuid128 := ⟨.replicate 16 0⟩

def samplePeer : BleAddr := ⟨0, .replicate 6 170⟩

/-- A fragment of the sample peer. -/
def sampleFragment (connHandle offset : UInt16) (data : List UInt8) (isFinal : Bool) : Fragment :=
  ⟨samplePeer, connHandle, 3, sampleUuid, sampleUuid, offset, data, isFinal⟩

/-- An observer whose pool is empty. -/
def sampleObserver : Observer :=
  ⟨fun _ => ⟨0, 0, sampleUuid, sampleUuid, samplePeer, [], 0, false⟩, false, 0⟩

/-- A value in two fragments, between which another connection writes and disconnects. -/
def sampleHistory : List ObserverEvent :=
  [.fragment (sampleFragment 1 0 [1, 2] false), .fragment (sampleFragment 2 0 [9] false),
    .advance 1000, .disconnect 2, .fragment (sampleFragment 1 2 [3] true)]

theorem sound_of_run_sample :
    ∃ s : Observing, s.emitted.map ObservedWrite.payload = [[1, 2, 3]] ∧ s.Sound sampleHistory := by
  have heval : ((Run.execute Observing.step (.start sampleObserver) sampleHistory).any fun s =>
      decide (s.emitted.map ObservedWrite.payload = [[1, 2, 3]])) = true := by
    decide +kernel
  obtain ⟨s, hrun, hs⟩ := (Option.any_eq_true _ _).mp heval
  exact ⟨s, of_decide_eq_true hs, sound_of_run sampleObserver (Run.of_execute hrun)⟩

end Soundness

end BleUsageMeter.Firmware
