import BleUsageMeter.Firmware.Reassembly

/-! How far apart the fragments of a value come.  The timeout is applied only when a slot is
claimed; a slot that is found is extended however long its peer has been quiet.  In a run in which
no fragment extends its slot after the timeout, no value is put together across one. -/

namespace BleUsageMeter.Firmware

open Kit

/-- The key of a fragment. -/
def ObserverEvent.key? : ObserverEvent → Option AttKey
  | .fragment f => some f.key
  | _ => none

def ObserverEvent.elapsed : ObserverEvent → Nat
  | .advance us => us
  | _ => 0

/-- The time since the last fragment of a key, after an event. -/
def ObserverEvent.idle (e : ObserverEvent) (key : AttKey) (idle : Nat) : Nat :=
  if e.key? = some key then 0 else idle + e.elapsed

/-- The time since the last fragment of a key, when it was `idle` before the events. -/
def idleAfter (key : AttKey) (idle : Nat) (events : List ObserverEvent) : Nat :=
  events.foldl (fun idle e => e.idle key idle) idle

/-- Each fragment of the key comes at most the timeout after the one before it. -/
def Prompt (key : AttKey) : Nat → List ObserverEvent → Prop
  | _, [] => True
  | idle, e :: rest =>
    (e.key? = some key → (idle : Int) ≤ kReassemblyTimeoutUs) ∧ Prompt key (e.idle key idle) rest

section Pieces

variable {key : AttKey} {idle : Nat} {events : List ObserverEvent} {e : ObserverEvent}

theorem idleAfter_concat :
    idleAfter key idle (events ++ [e]) = e.idle key (idleAfter key idle events) := by
  simp [idleAfter]

theorem prompt_concat : Prompt key idle (events ++ [e]) ↔ Prompt key idle events ∧
    (e.key? = some key → (idleAfter key idle events : Int) ≤ kReassemblyTimeoutUs) := by
  induction events generalizing idle with
  | nil => simp [Prompt, idleAfter]
  | cons first rest ih =>
    rw [List.cons_append, Prompt, Prompt, ih, and_assoc]
    rfl

theorem ObserverEvent.Spares.key_ne (h : e.Spares key) : e.key? ≠ some key := by
  cases e with
  | fragment f => exact fun hkey => h.1 f rfl (Option.some.inj hkey)
  | disconnect connHandle => simp [ObserverEvent.key?]
  | advance us => simp [ObserverEvent.key?]

end Pieces

/-- The slot holds the run that began at position `start`, whose fragments came promptly, and its
clock reading is that of the last of them. -/
structure Reassembly.Paced (r : Reassembly) (history : List ObserverEvent) (now : Int)
    (start : Nat) : Prop where
  since : r.Since history start
  prompt : Prompt r.key 0 (Span.of history ⟨start, history.length⟩)
  idle : now - r.lastUs = idleAfter r.key 0 (Span.of history ⟨start, history.length⟩)

section Slots

variable {history : List ObserverEvent} {r : Reassembly} {f : Fragment} {start : Nat} {now : Int}
  {e : ObserverEvent}

theorem Reassembly.Paced.other (h : r.Paced history now start) (he : e.Spares r.key) :
    r.Paced (history ++ [e]) (now + e.elapsed) start := by
  have hlt := h.since.lt
  refine ⟨h.since.other he, ?_, ?_⟩
  · rw [List.length_append, List.length_singleton, Span.of_concat hlt.le, prompt_concat]
    exact ⟨h.prompt, fun hkey => absurd hkey he.key_ne⟩
  · rw [List.length_append, List.length_singleton, Span.of_concat hlt.le, idleAfter_concat,
      ObserverEvent.idle, if_neg he.key_ne]
    have := h.idle
    omega

theorem Reassembly.Paced.append (h : r.Paced history now start) (hkey : f.key = r.key)
    (hoffset : f.offset.toNat = r.buf.length) (htimely : now - r.lastUs ≤ kReassemblyTimeoutUs) :
    (r.append f now).Paced (history ++ [.fragment f]) now start := by
  have hlt := h.since.lt
  have hsame : (ObserverEvent.fragment f).key? = some r.key := congrArg some hkey
  refine ⟨h.since.append hkey hoffset now, ?_, ?_⟩
  · rw [List.length_append, List.length_singleton, Span.of_concat hlt.le]
    exact prompt_concat.mpr ⟨h.prompt, fun _ => h.idle ▸ htimely⟩
  · rw [List.length_append, List.length_singleton, Span.of_concat hlt.le, idleAfter_concat]
    have hidle : (ObserverEvent.fragment f).idle (r.append f now).key
        (idleAfter (r.append f now).key 0 (Span.of history ⟨start, history.length⟩)) = 0 :=
      if_pos hsame
    rw [hidle]
    exact Int.sub_self now

theorem Reassembly.begin_paced (r : Reassembly) (hoffset : f.offset = 0) (now : Int) :
    ((r.begin f now).append f now).Paced (history ++ [.fragment f]) now history.length := by
  refine ⟨r.begin_since hoffset now, ?_, ?_⟩
  · rw [List.length_append, List.length_singleton, Span.of_last]
    exact ⟨fun _ => by decide, trivial⟩
  · rw [List.length_append, List.length_singleton, Span.of_last]
    have hidle : idleAfter ((r.begin f now).append f now).key 0 [.fragment f] = 0 := if_pos rfl
    rw [hidle]
    exact Int.sub_self now

end Slots

/-! ### Runs -/

/-- A fragment that follows the bytes of its key's slot comes before the timeout. -/
def Timely (s : Observing) : ObserverEvent → Prop
  | .fragment f => ∀ i, (s.observer.reasm i).Holds f.connHandle f.attrHandle →
    f.offset.toNat = (s.observer.reasm i).buf.length →
    s.observer.now - (s.observer.reasm i).lastUs ≤ kReassemblyTimeoutUs
  | _ => True

instance (s : Observing) (e : ObserverEvent) : Decidable (Timely s e) :=
  match e with
  | .fragment _ => inferInstanceAs (Decidable (∀ _ : Fin kMaxReassembly, _ → _ → _))
  | .disconnect _ => isTrue trivial
  | .advance _ => isTrue trivial

/-- The value is that of a piece whose fragments came promptly one after another. -/
def Origin.ExplainsPromptly (history : List ObserverEvent) (p : Origin) (w : ObservedWrite) :
    Prop :=
  p.Explains history w ∧ Prompt p.key 0 (p.toSpan.of history)

/-- Every emitted value has such a piece, and no two share a fragment. -/
def Observing.Prompt (history : List ObserverEvent) (s : Observing) : Prop :=
  ∃ origins : List Origin,
    List.Forall₂ (Origin.ExplainsPromptly history) origins s.emitted ∧
      origins.Pairwise fun p q => ∀ i, ¬(p.Uses history i ∧ q.Uses history i)

/-- Every slot in use holds a run that came promptly, after the pieces of its key that were
emitted. -/
structure Observing.Paced (history : List ObserverEvent) (origins : List Origin) (s : Observing) :
    Prop where
  runs : ∀ i, (s.observer.reasm i).inUse = true →
    ∃ start, (s.observer.reasm i).Paced history s.observer.now start ∧
      ∀ p ∈ origins, p.key = (s.observer.reasm i).key → p.stop ≤ start
  explained : List.Forall₂ (Origin.ExplainsPromptly history) origins s.emitted
  apart : origins.Pairwise fun p q => p.key = q.key → p.stop ≤ q.start

section Runs

variable {history : List ObserverEvent} {origins : List Origin} {s : Observing} {o : Observer}
  {f : Fragment} {e : ObserverEvent} {i : Fin kMaxReassembly} {r : Reassembly}

theorem Origin.ExplainsPromptly.grow {p : Origin} {w : ObservedWrite}
    (h : p.ExplainsPromptly history w) (e : ObserverEvent) :
    p.ExplainsPromptly (history ++ [e]) w := by
  refine ⟨h.1.grow e, ?_⟩
  rw [Span.of_append h.1.2.1]
  exact h.2

theorem Observing.Paced.stop_le (h : s.Paced history origins) {p : Origin} (hp : p ∈ origins) :
    p.stop ≤ history.length := by
  have hstops : List.Forall₂ (fun p _ => p.stop ≤ history.length ∧ True) origins s.emitted :=
    h.explained.imp fun _ _ hexplains => ⟨hexplains.1.2.1, trivial⟩
  exact ((List.forall₂_and_left _ _).mp hstops).1 p hp

theorem Observing.Paced.takes (h : s.Paced history origins) (htimely : Timely s (.fragment f))
    (htakes : s.observer.Takes f i r) (hoffset : f.offset.toNat = r.buf.length) :
    r.key = f.key ∧ ∃ start,
      (r.append f s.observer.now).Paced (history ++ [.fragment f]) s.observer.now start ∧
      ∀ p ∈ origins, p.key = r.key → p.stop ≤ start := by
  rcases htakes with ⟨hholds, rfl⟩ | ⟨-, hzero, rfl⟩
  · obtain ⟨hused, hkey⟩ := (Reassembly.holds_iff f.key).mp hholds
    obtain ⟨start, hpaced, hstops⟩ := h.runs i hused
    exact ⟨hkey, start, hpaced.append hkey.symm hoffset (htimely i hholds hoffset), hstops⟩
  · exact ⟨rfl, _, Reassembly.begin_paced _ hzero _, fun p hp _ => h.stop_le hp⟩

/-- A slot that is in use and at rest holds its run on, of another key than the fragment. -/
theorem Observing.Paced.rest (h : s.Paced history origins) {u : Observer}
    (hnow : u.now = s.observer.now) (hrests : s.observer.Rests u f i)
    (hused : (u.reasm i).inUse = true) : (u.reasm i).key ≠ f.key ∧
      ∃ start, (u.reasm i).Paced (history ++ [.fragment f]) u.now start ∧
        ∀ p ∈ origins, p.key = (u.reasm i).key → p.stop ≤ start := by
  rcases rests_spares hrests with ⟨hsame, hspares⟩ | ⟨hfree, -⟩
  · rw [hsame] at hused ⊢
    obtain ⟨start, hpaced, hstops⟩ := h.runs i hused
    have hother := hpaced.other (hspares hused)
    rw [hnow]
    refine ⟨fun hkey => (hspares hused).1 f rfl hkey.symm, start, ?_, hstops⟩
    simpa [ObserverEvent.elapsed] using hother
  · rw [hfree] at hused
    cases hused

theorem Observing.Paced.fragment (h : s.Paced history origins) (hdistinct : s.observer.Distinct)
    (htimely : Timely s (.fragment f)) :
    ∃ origins', Observing.Paced (history ++ [.fragment f]) origins'
      ⟨(s.observer.onAttFragment f).1, s.emitted ++ (s.observer.onAttFragment f).2.toList⟩ := by
  have hnow := (s.observer.onAttFragment_now f).1
  have hexplained : List.Forall₂ (Origin.ExplainsPromptly (history ++ [.fragment f])) origins
      s.emitted := h.explained.imp fun _ _ hp => hp.grow _
  rcases Observer.onAttFragment_cases hdistinct f with
    ⟨hnone, hrests⟩ | ⟨i, r, htakes, hoffset, -, hrests, hsettles⟩
  · rw [hnone, Option.toList_none, List.append_nil]
    exact ⟨origins, fun j hused => (h.rest hnow (hrests j) hused).2, hexplained, h.apart⟩
  · obtain ⟨hkey, start, hpaced, hstops⟩ := h.takes htimely htakes hoffset
    rcases hsettles with ⟨-, hslot, hwrite⟩ | ⟨hfinal, hslot, hwrite⟩
    · rw [hwrite, Option.toList_none, List.append_nil]
      refine ⟨origins, fun j hused => ?_, hexplained, h.apart⟩
      by_cases hj : j = i
      · subst hj
        rw [hslot, hnow]
        exact ⟨start, hpaced, hstops⟩
      · exact (h.rest hnow (hrests j hj) hused).2
    · -- the slot is free, and the others hold other keys
      have hothers : ∀ j, ((s.observer.onAttFragment f).1.reasm j).inUse = true → j ≠ i := by
        rintro j hused rfl
        simp [hslot, Reassembly.release] at hused
      rw [hwrite]
      split
      · rw [Option.toList_none, List.append_nil]
        exact ⟨origins, fun j hused => (h.rest hnow (hrests j (hothers j hused)) hused).2,
          hexplained, h.apart⟩
      · have hprompt := hpaced.prompt
        rw [List.length_append, List.length_singleton] at hprompt
        refine ⟨origins ++ [⟨⟨start, history.length + 1⟩, r.key⟩], fun j hused => ?_,
          List.rel_append hexplained (.cons ⟨hpaced.since.explains hkey.symm hfinal, ?_⟩ .nil), ?_⟩
        · obtain ⟨hother, start', hpaced', hstops'⟩ :=
            h.rest hnow (hrests j (hothers j hused)) hused
          refine ⟨start', hpaced', fun p hp hsame => ?_⟩
          rcases List.mem_append.mp hp with hp | hp
          · exact hstops' p hp hsame
          · obtain rfl := List.mem_singleton.mp hp
            exact absurd (hsame.symm.trans hkey) hother
        · exact hprompt
        · refine List.pairwise_append.mpr ⟨h.apart, List.pairwise_singleton _ _, ?_⟩
          intro p hp q hq hsame
          obtain rfl := List.mem_singleton.mp hq
          exact hstops p hp hsame

theorem Observing.Paced.disconnect (h : s.Paced history origins) (connHandle : UInt16) :
    Observing.Paced (history ++ [.disconnect connHandle]) origins
      { s with observer := s.observer.disconnect connHandle } := by
  refine ⟨?_, h.explained.imp fun _ _ hp => hp.grow _, h.apart⟩
  intro j hused
  simp only [Observer.disconnect] at hused ⊢
  split at hused
  · cases hused
  · rename_i hother
    rw [if_neg hother]
    obtain ⟨start, hpaced, hstops⟩ := h.runs j hused
    have hspares : (ObserverEvent.disconnect connHandle).Spares (s.observer.reasm j).key :=
      ⟨by simp, fun e => hother ⟨hused, (ObserverEvent.disconnect.inj e).symm⟩⟩
    exact ⟨start, by simpa [ObserverEvent.elapsed] using hpaced.other hspares, hstops⟩

theorem Observing.Paced.advance (h : s.Paced history origins) (us : Nat) :
    Observing.Paced (history ++ [.advance us]) origins
      { s with observer := { s.observer with now := s.observer.now + us } } := by
  refine ⟨?_, h.explained.imp fun _ _ hp => hp.grow _, h.apart⟩
  intro j hused
  obtain ⟨start, hpaced, hstops⟩ := h.runs j hused
  exact ⟨start, hpaced.other ⟨by simp, by simp⟩, hstops⟩

/-- When no fragment extends its slot after the timeout, no value is put together across one. -/
theorem prompt_of_run (o : Observer) {events : List ObserverEvent}
    (h : Run Observing.step Timely (.start o) events s) : s.Prompt events := by
  have hpaced : Run Observing.step Always (.start o) events s ∧
      ∃ origins, s.Paced events origins := by
    apply h.traces
    · refine ⟨.nil, [], fun i hused => ?_, .nil, .nil⟩
      cases hused
    · rintro history t e u ⟨hrun, origins, hpaced⟩ htimely hstep
      refine ⟨.snoc hrun trivial hstep, ?_⟩
      obtain ⟨_, htracked⟩ := tracked_of_run o hrun
      cases e with
      | fragment f =>
        obtain rfl := Option.some.inj hstep
        exact hpaced.fragment htracked.distinct_slots htimely
      | disconnect connHandle =>
        obtain rfl := Option.some.inj hstep
        exact ⟨origins, hpaced.disconnect connHandle⟩
      | advance us =>
        obtain rfl := Option.some.inj hstep
        exact ⟨origins, hpaced.advance us⟩
  obtain ⟨-, origins, hpaced⟩ := hpaced
  exact ⟨origins, hpaced.explained, hpaced.apart.imp Origin.not_uses_both⟩

end Runs

/-! ### A fragment after the timeout -/

/-- The fragments of `sampleHistory` come within the timeout. -/
theorem prompt_of_run_sample : ∃ s : Observing, s.emitted.map ObservedWrite.payload = [[1, 2, 3]] ∧
    s.Prompt sampleHistory := by
  have heval : ((Run.execute (fun s e => if Timely s e then Observing.step s e else none)
      (.start sampleObserver) sampleHistory).any fun s =>
        decide (s.emitted.map ObservedWrite.payload = [[1, 2, 3]])) = true := by
    decide +kernel
  obtain ⟨s, hrun, hs⟩ := (Option.any_eq_true _ _).mp heval
  exact ⟨s, of_decide_eq_true hs, prompt_of_run sampleObserver (.of_execute_guarded hrun)⟩

/-- The peer is quiet for six seconds between the two fragments. -/
def quietHistory : List ObserverEvent :=
  [.fragment (sampleFragment 1 0 [1, 2] false), .advance 6000000,
    .fragment (sampleFragment 1 2 [3] true)]

/-- The fragment that comes after the timeout is glued onto the first. -/
theorem glued_after_timeout : ∃ s : Observing,
    Run Observing.step Always (.start sampleObserver) quietHistory s ∧
      s.emitted.map ObservedWrite.payload = [[1, 2, 3]] ∧ ¬s.Prompt quietHistory := by
  have heval : ((Run.execute Observing.step (.start sampleObserver) quietHistory).any fun s =>
      decide (s.emitted.map ObservedWrite.payload = [[1, 2, 3]])) = true := by
    decide +kernel
  obtain ⟨s, hrun, hs⟩ := (Option.any_eq_true _ _).mp heval
  refine ⟨s, .of_execute hrun, of_decide_eq_true hs, ?_⟩
  rintro ⟨origins, horigins, -⟩
  obtain ⟨w, hemitted, hpayload⟩ := List.map_eq_singleton_iff.mp (of_decide_eq_true hs)
  rw [hemitted] at horigins
  obtain ⟨⟨⟨start, stop⟩, key⟩, -, ⟨⟨hlt, hle, first, last, hcarries, -, -, -, hlast, -, hfinal⟩,
    hprompt⟩, -⟩ := List.forall₂_cons_right_iff.mp horigins
  have hle : stop ≤ 3 := hle
  have hlt : start < stop := hlt
  obtain ⟨hstarts, hfirst, -, -, hbuf⟩ := hcarries
  rw [hpayload] at hbuf
  -- only the whole history ends with a final fragment and has these bytes
  have hspan : start = 0 ∧ stop = 3 := by
    obtain rfl | rfl | rfl : stop = 1 ∨ stop = 2 ∨ stop = 3 := by omega
    · obtain rfl : start = 0 := by omega
      obtain rfl := ObserverEvent.fragment.inj (Option.some.inj hlast)
      cases hfinal
    · obtain rfl | rfl : start = 0 ∨ start = 1 := by omega
      · cases hlast
      · cases hlast
    · obtain rfl | rfl | rfl : start = 0 ∨ start = 1 ∨ start = 2 := by omega
      · exact ⟨rfl, rfl⟩
      · cases hstarts
      · obtain rfl := ObserverEvent.fragment.inj (Option.some.inj hstarts)
        rw [← hfirst] at hbuf
        cases hbuf
  obtain ⟨rfl, rfl⟩ := hspan
  obtain rfl := ObserverEvent.fragment.inj (Option.some.inj hstarts)
  rw [← hfirst] at hprompt
  exact absurd (hprompt.2.2.1 rfl) (by decide)

end BleUsageMeter.Firmware
