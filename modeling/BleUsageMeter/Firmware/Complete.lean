import BleUsageMeter.Firmware.Pace

/-! What the observer does not emit.  A value whose fragments all come, in order and promptly, is
emitted once, whatever other connections do meanwhile, unless bytes of an earlier write are still
pending for its attribute: its first fragment is then taken for a broken continuation. -/

namespace BleUsageMeter.Firmware

open Kit

namespace Observer

/-- The observer after an event, and the value that the event emits. -/
def react (o : Observer) : ObserverEvent → Observer × Option ObservedWrite
  | .fragment f => o.onAttFragment f
  | .disconnect connHandle => (o.disconnect connHandle, none)
  | .advance us => ({ o with now := o.now + us }, none)

/-- The observer is the state of a started one after some events. -/
def Reachable (o : Observer) : Prop :=
  ∃ (started : Observer) (history : List ObserverEvent) (s : Observing),
    Run Observing.step Always (.start started) history s ∧ s.observer = o

/-- No slot of the key has bytes in it, and there is a slot for it: its own, or one that is free or
stale. -/
structure Accepts (o : Observer) (key : AttKey) : Prop where
  clean : ∀ i, (o.reasm i).Holds key.connHandle key.attrHandle → (o.reasm i).buf = []
  room : ∃ i, (o.reasm i).Holds key.connHandle key.attrHandle ∨ (o.reasm i).inUse = false ∨
    kReassemblyTimeoutUs < o.now - (o.reasm i).lastUs

end Observer

/-- The values that the fragments of a key emit. -/
def emitsFor (key : AttKey) : Observer → List ObserverEvent → List ObservedWrite
  | _, [] => []
  | o, e :: rest =>
    (if e.key? = some key then (o.react e).2.toList else []) ++ emitsFor key (o.react e).1 rest

/-- A fragment of the key at offset 0 comes when the observer accepts it. -/
def Begins (key : AttKey) : Observer → List ObserverEvent → Prop
  | _, [] => False
  | o, e :: rest =>
    (∃ f, e = .fragment f ∧ f.key = key ∧ f.offset = 0 ∧ o.Accepts key) ∨
      Begins key (o.react e).1 rest

/-- The fragments of the key in the events are the rest of a value of which `offset` bytes have
come, `idle` after the last of them. -/
structure Completes (key : AttKey) (offset idle : Nat) (events : List ObserverEvent) : Prop where
  contiguous : Contiguous offset (fragmentsOf key events)
  nonempty : 0 < offset + (payloadOf (fragmentsOf key events)).length
  fits : offset + (payloadOf (fragmentsOf key events)).length ≤ kMaxAttPayload
  finals : ∃ n, (fragmentsOf key events).map (·.isFinal) = List.replicate n false ++ [true]
  connected : .disconnect key.connHandle ∉ events
  prompt : Prompt key idle events

/-- The events begin with the first fragment of a logical write of the key, and its other fragments
are the only ones of the key among them. -/
structure LogicalWrite (key : AttKey) (events : List ObserverEvent) : Prop extends
    Completes key 0 0 events where
  starts : ∃ first rest, events = .fragment first :: rest ∧ first.key = key

/-! ### The events of a write -/

section Events

variable {key : AttKey} {offset idle : Nat} {events : List ObserverEvent} {e : ObserverEvent}
  {f : Fragment}

theorem ObserverEvent.eq_fragment (h : e.key? = some key) : ∃ f, e = .fragment f ∧ f.key = key := by
  cases e with
  | fragment f => exact ⟨f, rfl, Option.some.inj h⟩
  | disconnect connHandle => cases h
  | advance us => cases h

theorem fragmentsOf_cons (h : f.key = key) :
    fragmentsOf key (.fragment f :: events) = f :: fragmentsOf key events := by
  simp [fragmentsOf, h]

theorem fragmentsOf_cons_other (h : e.key? ≠ some key) :
    fragmentsOf key (e :: events) = fragmentsOf key events := by
  cases e with
  | fragment f =>
    have hne : f.key ≠ key := fun hkey => h (congrArg some hkey)
    simp [fragmentsOf, hne]
  | disconnect connHandle => rfl
  | advance us => rfl

/-- Later fragments do not come at smaller offsets. -/
theorem Contiguous.le {fragments : List Fragment} (h : Contiguous offset fragments)
    (hf : f ∈ fragments) : offset ≤ f.offset.toNat := by
  induction fragments generalizing offset with
  | nil => cases hf
  | cons first rest ih =>
    obtain ⟨hfirst, hrest⟩ := h
    rcases List.mem_cons.mp hf with rfl | hf
    · exact Nat.le_of_eq hfirst.symm
    · have := ih hrest hf
      omega

theorem Completes.other (h : Completes key offset idle (e :: events)) (he : e.key? ≠ some key) :
    e.Spares key ∧ Completes key offset (idle + e.elapsed) events := by
  obtain ⟨hcontiguous, hnonempty, hfits, hfinals, hconnected, hprompt⟩ := h
  rw [fragmentsOf_cons_other he] at hcontiguous hnonempty hfits hfinals
  refine ⟨⟨?_, ?_⟩, hcontiguous, hnonempty, hfits, hfinals, ?_, ?_⟩
  · rintro f rfl hkey
    exact he (congrArg some hkey)
  · rintro rfl
    exact hconnected (by simp)
  · exact fun hmem => hconnected (List.mem_cons_of_mem _ hmem)
  · have hrest := hprompt.2
    rwa [ObserverEvent.idle, if_neg he] at hrest

/-- A fragment of the key is the last one, or the events after it complete the value. -/
theorem Completes.fragment (h : Completes key offset idle (.fragment f :: events))
    (hkey : f.key = key) : f.offset.toNat = offset ∧ offset + f.data.length ≤ kMaxAttPayload ∧
      ((f.isFinal = true ∧ fragmentsOf key events = [] ∧ 0 < offset + f.data.length) ∨
        (f.isFinal = false ∧ Completes key (offset + f.data.length) 0 events)) := by
  obtain ⟨hcontiguous, hnonempty, hfits, ⟨n, hfinals⟩, hconnected, hprompt⟩ := h
  have hlength : ∀ rest, (payloadOf (f :: rest)).length =
      f.data.length + (payloadOf rest).length := by simp [payloadOf]
  rw [fragmentsOf_cons hkey] at hcontiguous hnonempty hfits hfinals
  rw [hlength] at hnonempty hfits
  refine ⟨hcontiguous.1, by omega, ?_⟩
  cases n with
  | zero =>
    obtain ⟨hfinal, hrest⟩ := List.cons.inj hfinals
    have hnil : fragmentsOf key events = [] := List.map_eq_nil_iff.mp hrest
    rw [hnil] at hnonempty
    exact .inl ⟨hfinal, hnil, by simpa [payloadOf] using hnonempty⟩
  | succ n =>
    obtain ⟨hfinal, hrest⟩ := List.cons.inj hfinals
    have hidle : (ObserverEvent.fragment f).idle key idle = 0 := if_pos (congrArg some hkey)
    refine .inr ⟨hfinal, hcontiguous.2, by omega, by omega, ⟨n, hrest⟩, ?_, hidle ▸ hprompt.2⟩
    exact fun hmem => hconnected (List.mem_cons_of_mem _ hmem)

/-- A value that is to be completed is waited for no longer than the timeout. -/
theorem Completes.idle_le (h : Completes key offset idle events) :
    (idle : Int) ≤ kReassemblyTimeoutUs := by
  induction events generalizing idle with
  | nil =>
    obtain ⟨n, hfinals⟩ := h.finals
    simp [fragmentsOf] at hfinals
  | cons e events ih =>
    by_cases he : e.key? = some key
    · exact h.prompt.1 he
    · have := ih (h.other he).2
      omega

end Events

/-! ### Steps -/

namespace Observer

variable {o : Observer} {key : AttKey} {f : Fragment} {e : ObserverEvent}
  {i : Fin kMaxReassembly}

theorem step_react (s : Observing) (e : ObserverEvent) : s.step e =
    some ⟨(s.observer.react e).1, s.emitted ++ (s.observer.react e).2.toList⟩ := by
  cases e with
  | fragment f => rfl
  | disconnect connHandle => simp [Observing.step, react]
  | advance us => simp [Observing.step, react]

theorem Reachable.react (h : o.Reachable) (e : ObserverEvent) : (o.react e).1.Reachable := by
  obtain ⟨started, history, s, hrun, rfl⟩ := h
  exact ⟨started, history ++ [e], _, .snoc hrun trivial (step_react s e), rfl⟩

theorem Reachable.distinct (h : o.Reachable) : o.Distinct := by
  obtain ⟨started, history, s, hrun, rfl⟩ := h
  obtain ⟨origins, htracked⟩ := tracked_of_run started hrun
  exact htracked.distinct_slots

theorem Reachable.attached (h : o.Reachable) : o.attached = true := by
  obtain ⟨started, history, s, hrun, rfl⟩ := h
  apply hrun.preserves
  · rfl
  · intro t e u ht _ hstep
    cases e with
    | fragment f =>
      obtain rfl := Option.some.inj hstep
      exact (t.observer.onAttFragment_now f).2.trans ht
    | disconnect connHandle =>
      obtain rfl := Option.some.inj hstep
      exact ht
    | advance us =>
      obtain rfl := Option.some.inj hstep
      exact ht

theorem findSlot_eq {connHandle attrHandle : UInt16} (h : o.Distinct)
    (hi : (o.reasm i).Holds connHandle attrHandle) : o.findSlot connHandle attrHandle = some i := by
  cases hfind : o.findSlot connHandle attrHandle with
  | none => exact absurd hi (findSlot_eq_none hfind i)
  | some j => rw [h j i _ _ (findSlot_eq_some hfind) hi]

/-- A fragment that follows the bytes of its slot is added to them. -/
theorem onAttFragment_follows (h : o.Distinct)
    (hi : (o.reasm i).Holds f.connHandle f.attrHandle)
    (hoffset : f.offset.toNat = (o.reasm i).buf.length)
    (hfits : (o.reasm i).buf.length + f.data.length ≤ kMaxAttPayload) :
    o.Settles (o.onAttFragment f).1 (o.onAttFragment f).2 f i ((o.reasm i).append f o.now) := by
  unfold onAttFragment
  simp only [findSlot_eq h hi]
  exact (extend_fits hoffset hfits).2

/-- A slot that is not in use after `expire` was free or stale. -/
theorem expire_inUse (o : Observer) (i : Fin kMaxReassembly) :
    (o.expire.reasm i).inUse = false ↔
      (o.reasm i).inUse = false ∨ kReassemblyTimeoutUs < o.now - (o.reasm i).lastUs := by
  simp only [expire]
  split
  · rename_i hstale
    exact ⟨fun _ => .inr hstale.2, fun _ => rfl⟩
  · rename_i hfresh
    constructor
    · exact .inl
    · rintro (hfree | hlate)
      · exact hfree
      · exact Bool.eq_false_iff.mpr fun hused => hfresh ⟨hused, hlate⟩

theorem freeSlot_isSome_iff (o : Observer) :
    (∃ i, o.freeSlot = some i) ↔ ∃ i, (o.reasm i).inUse = false := by
  rw [← Option.isSome_iff_exists, freeSlot, List.find?_isSome]
  simp

/-- The first fragment of a write that the observer accepts is put into a slot. -/
theorem onAttFragment_accepted (h : o.Distinct) (haccepts : o.Accepts f.key)
    (hoffset : f.offset = 0) (hfits : f.data.length ≤ kMaxAttPayload) :
    ∃ i, ∃ r : Reassembly, r.key = f.key ∧ r.inUse = true ∧ r.buf = [] ∧
      o.Settles (o.onAttFragment f).1 (o.onAttFragment f).2 f i (r.append f o.now) := by
  have hzero : f.offset.toNat = 0 := by rw [hoffset]; rfl
  cases hfind : o.findSlot f.connHandle f.attrHandle with
  | some i =>
    have hi := findSlot_eq_some hfind
    have hbuf : (o.reasm i).buf = [] := haccepts.clean i hi
    obtain ⟨hused, hkey⟩ := (Reassembly.holds_iff f.key).mp hi
    refine ⟨i, o.reasm i, hkey, hused, hbuf, onAttFragment_follows h hi ?_ ?_⟩
    · rw [hzero, hbuf]
      rfl
    · rw [hbuf]
      simpa using hfits
  | none =>
    obtain ⟨i, hfree⟩ : ∃ i, o.expire.freeSlot = some i := by
      obtain ⟨j, hholds | hroom⟩ := haccepts.room
      · exact absurd hholds (findSlot_eq_none hfind j)
      · exact (freeSlot_isSome_iff _).mpr ⟨j, (expire_inUse o j).mpr hroom⟩
    have hslot : (o.expire.set i ((o.expire.reasm i).begin f o.now)).reasm i =
        (o.expire.reasm i).begin f o.now := by simp [set_reasm]
    refine ⟨i, (o.expire.reasm i).begin f o.now, rfl, rfl, rfl, ?_⟩
    unfold onAttFragment
    simp only [hfind, hoffset, ne_eq, not_true_eq_false, if_false, hfree]
    have hsettles := (extend_fits (o := o.expire.set i ((o.expire.reasm i).begin f o.now))
      (i := i) (f := f) (by rw [hslot, hzero]; rfl)
      (by rw [hslot]; simpa [Reassembly.begin] using hfits)).2
    rw [hslot] at hsettles
    exact hsettles

/-- A fragment at offset 0 that the observer does not accept is dropped, with the bytes that were
pending. -/
theorem onAttFragment_refused (h : o.Distinct) (hrefuses : ¬o.Accepts f.key)
    (hoffset : f.offset = 0) : (o.onAttFragment f).2 = none ∧
      ∀ j, ¬((o.onAttFragment f).1.reasm j).Holds f.connHandle f.attrHandle := by
  unfold onAttFragment
  split
  · rename_i i hfind
    have hi := findSlot_eq_some hfind
    have hbuf : (o.reasm i).buf ≠ [] := by
      intro hbuf
      refine hrefuses ⟨fun j hj => ?_, i, .inl hi⟩
      rw [h j i _ _ hj hi]
      exact hbuf
    have hextend : o.extend i f = (o.set i (o.reasm i).release, none) := by
      unfold extend
      dsimp only
      rw [if_pos]
      rw [hoffset]
      exact fun e => hbuf (List.length_eq_zero_iff.mp e.symm)
    rw [hextend]
    refine ⟨rfl, fun j => ?_⟩
    rw [set_reasm]
    by_cases hj : j = i
    · rw [if_pos hj]
      exact fun hholds => by cases hholds.1
    · rw [if_neg hj]
      exact fun hholds => hj (h j i _ _ hholds hi)
  · rename_i hfind
    have hnone := findSlot_eq_none hfind
    have hfull : o.expire.freeSlot = none := by
      by_contra hfree
      obtain ⟨i, hfree⟩ := (freeSlot_isSome_iff o.expire).mp (Option.ne_none_iff_exists'.mp hfree)
      exact hrefuses ⟨fun j hj => absurd hj (hnone j), i, .inr ((expire_inUse o i).mp hfree)⟩
    simp only [hoffset, ne_eq, not_true_eq_false, if_false, hfull]
    refine ⟨trivial, fun j hholds => ?_⟩
    rcases o.expire_reasm j with hsame | ⟨hfree, -⟩
    · exact hnone j (hsame ▸ hholds)
    · rw [hholds.1] at hfree
      cases hfree

theorem extend_other (o : Observer) (f : Fragment) {j : Fin kMaxReassembly} (hj : j ≠ i) :
    (o.extend i f).1.reasm j = o.reasm j := by
  rcases o.extend_cases i f with ⟨-, hu⟩ | ⟨-, -, hrest, -⟩
  · rw [hu, set_reasm, if_neg hj]
  · exact hrest j hj

/-- A slot that is not stale is as before after an event that spares its key. -/
theorem react_keeps (hused : (o.reasm i).inUse = true) (he : e.Spares (o.reasm i).key)
    (hfresh : o.now - (o.reasm i).lastUs ≤ kReassemblyTimeoutUs) :
    (o.react e).1.reasm i = o.reasm i := by
  cases e with
  | fragment g =>
    have hother : ¬(o.reasm i).Holds g.connHandle g.attrHandle := fun hholds =>
      he.1 g rfl ((Reassembly.holds_iff g.key).mp hholds).2.symm
    have hexpire : o.expire.reasm i = o.reasm i := by
      simp only [expire]
      rw [if_neg fun hstale => absurd hstale.2 (by omega)]
    show (o.onAttFragment g).1.reasm i = o.reasm i
    unfold onAttFragment
    split
    · rename_i j hfind
      exact extend_other o g fun hij => hother (hij ▸ findSlot_eq_some hfind)
    · split
      · rfl
      · split
        · exact hexpire
        · rename_i j hfree
          have hij : i ≠ j := by
            rintro rfl
            have hunused : (o.expire.reasm i).inUse = false := by
              simpa using List.find?_some hfree
            rw [hexpire, hused] at hunused
            cases hunused
          rw [extend_other _ _ hij, set_reasm, if_neg hij, hexpire]
  | disconnect connHandle =>
    have hother : ¬((o.reasm i).inUse = true ∧ (o.reasm i).connHandle = connHandle) :=
      fun hconn => he.2 (congrArg ObserverEvent.disconnect hconn.2.symm)
    exact if_neg hother
  | advance us => rfl

/-- An event that is no fragment of the key puts no slot into use for it. -/
theorem react_unheld (h : o.Distinct)
    (hnone : ∀ j, ¬(o.reasm j).Holds key.connHandle key.attrHandle) (he : e.key? ≠ some key)
    (j : Fin kMaxReassembly) : ¬((o.react e).1.reasm j).Holds key.connHandle key.attrHandle := by
  intro hholds
  cases e with
  | fragment g =>
    have hrests : ¬o.Rests (o.onAttFragment g).1 g j := by
      rintro (⟨hsame, -⟩ | ⟨hfree, -⟩)
      · exact hnone j (hsame ▸ hholds)
      · exact absurd (hholds.1.symm.trans hfree) (by decide)
    rcases onAttFragment_cases h g with ⟨-, hall⟩ | ⟨i, r, htakes, -, -, hall, hsettles⟩
    · exact hrests (hall j)
    · obtain rfl : j = i := by
        by_contra hij
        exact hrests (hall j hij)
      have hkey : r.key = g.key := by
        rcases htakes with ⟨hi, rfl⟩ | ⟨-, -, rfl⟩
        · exact ((Reassembly.holds_iff g.key).mp hi).2
        · rfl
      have hslot := ((Reassembly.holds_iff key).mp hholds)
      rcases hsettles with ⟨-, hu, -⟩ | ⟨-, hu, -⟩
      · refine he (congrArg some ?_)
        have hkey' : ((o.onAttFragment g).1.reasm j).key = key := hslot.2
        rw [hu] at hkey'
        exact hkey.symm.trans hkey'
      · have hused : ((o.onAttFragment g).1.reasm j).inUse = true := hslot.1
        rw [hu] at hused
        cases hused
  | disconnect connHandle =>
    have hrelease : (o.disconnect connHandle).reasm j = o.reasm j ∨
        ((o.disconnect connHandle).reasm j).inUse = false := by
      simp only [disconnect]
      split
      · exact .inr rfl
      · exact .inl rfl
    rcases hrelease with hsame | hfree
    · exact hnone j (hsame ▸ hholds)
    · exact absurd (hholds.1.symm.trans hfree) (by decide)
  | advance us => exact hnone j hholds

/-- The observer holds the bytes `buf` of a value of the key, `idle` after the last of them. -/
structure Carrying (o : Observer) (key : AttKey) (buf : List UInt8) (idle : Nat) : Prop where
  reachable : o.Reachable
  slot : ∃ i, (o.reasm i).Holds key.connHandle key.attrHandle ∧ (o.reasm i).buf = buf ∧
    o.now - (o.reasm i).lastUs = idle

theorem react_now (o : Observer) (e : ObserverEvent) : (o.react e).1.now = o.now + e.elapsed := by
  cases e with
  | fragment f => simp [react, ObserverEvent.elapsed, (o.onAttFragment_now f).1]
  | disconnect connHandle => simp [react, disconnect, ObserverEvent.elapsed]
  | advance us => rfl

theorem Carrying.other {buf : List UInt8} {idle : Nat} (h : o.Carrying key buf idle)
    (he : e.Spares key) (hidle : (idle : Int) ≤ kReassemblyTimeoutUs) :
    (o.react e).1.Carrying key buf (idle + e.elapsed) := by
  obtain ⟨hreachable, i, hholds, hbuf, hlast⟩ := h
  obtain ⟨hused, hkey⟩ := (Reassembly.holds_iff key).mp hholds
  have hsame : (o.react e).1.reasm i = o.reasm i :=
    react_keeps hused (hkey ▸ he) (by omega)
  refine ⟨hreachable.react e, i, ?_, ?_, ?_⟩
  · rw [hsame]
    exact hholds
  · rw [hsame]
    exact hbuf
  · rw [hsame, react_now]
    omega

/-- What comes of a slot of the key to which the data of a fragment has been added. -/
theorem Settles.outcome {r : Reassembly} (hreachable : o.Reachable)
    (h : o.Settles (o.onAttFragment f).1 (o.onAttFragment f).2 f i (r.append f o.now))
    (hkey : r.key = f.key) (hused : r.inUse = true) :
    (f.isFinal = false → (o.onAttFragment f).2 = none ∧
      (o.onAttFragment f).1.Carrying f.key (r.buf ++ f.data) 0) ∧
    (f.isFinal = true → r.buf ++ f.data ≠ [] →
      ∃ w, (o.onAttFragment f).2 = some w ∧ w.payload = r.buf ++ f.data) := by
  rcases h with ⟨hfinal, hslot, hwrite⟩ | ⟨hfinal, -, hwrite⟩
  · refine ⟨fun _ => ⟨hwrite, hreachable.react (.fragment f), i, ?_⟩, fun h => ?_⟩
    · rw [hslot]
      refine ⟨(Reassembly.holds_iff f.key).mpr ⟨hused, hkey⟩, rfl, ?_⟩
      rw [(o.onAttFragment_now f).1]
      exact Int.sub_self o.now
    · rw [hfinal] at h
      cases h
  · refine ⟨fun h => ?_, fun _ hne => ⟨_, hwrite.trans (if_neg ?_), rfl⟩⟩
    · rw [hfinal] at h
      cases h
    · rintro (hdetached | hempty)
      · rw [hreachable.attached] at hdetached
        cases hdetached
      · exact hne hempty

end Observer

/-! ### Writes -/

section Writes

variable {o : Observer} {key : AttKey} {f : Fragment} {events : List ObserverEvent}
  {e : ObserverEvent} {idle : Nat}

theorem emitsFor_other (h : e.key? ≠ some key) :
    emitsFor key o (e :: events) = emitsFor key (o.react e).1 events := by
  simp [emitsFor, h]

theorem emitsFor_fragment (h : f.key = key) : emitsFor key o (.fragment f :: events) =
    (o.onAttFragment f).2.toList ++ emitsFor key (o.onAttFragment f).1 events := by
  have hkey : (ObserverEvent.fragment f).key? = some key := congrArg some h
  rw [emitsFor, if_pos hkey]
  rfl

theorem emitsFor_eq_nil (h : fragmentsOf key events = []) : emitsFor key o events = [] := by
  induction events generalizing o with
  | nil => rfl
  | cons e events ih =>
    have he : e.key? ≠ some key := by
      intro he
      obtain ⟨f, rfl, hkey⟩ := ObserverEvent.eq_fragment he
      rw [fragmentsOf_cons hkey] at h
      cases h
    rw [fragmentsOf_cons_other he] at h
    rw [emitsFor_other he, ih h]

/-- A fragment added to a slot of its key completes the value, or the events after it do. -/
theorem emits_fragment {i : Fin kMaxReassembly} {r : Reassembly} (hreachable : o.Reachable)
    (hsettles : o.Settles (o.onAttFragment f).1 (o.onAttFragment f).2 f i (r.append f o.now))
    (hkey : r.key = key) (hfragment : f.key = key) (hused : r.inUse = true)
    (h : Completes key r.buf.length idle (.fragment f :: events))
    (hrest : (o.onAttFragment f).1.Carrying key (r.buf ++ f.data) 0 →
      Completes key (r.buf ++ f.data).length 0 events →
      (emitsFor key (o.onAttFragment f).1 events).map ObservedWrite.payload =
        [r.buf ++ f.data ++ payloadOf (fragmentsOf key events)]) :
    (emitsFor key o (.fragment f :: events)).map ObservedWrite.payload =
      [r.buf ++ payloadOf (fragmentsOf key (.fragment f :: events))] := by
  subst hfragment
  obtain ⟨hopen, hclosed⟩ := hsettles.outcome hreachable hkey hused
  have hlength : (r.buf ++ f.data).length = r.buf.length + f.data.length := List.length_append
  have hpayload : payloadOf (fragmentsOf f.key (.fragment f :: events)) =
      f.data ++ payloadOf (fragmentsOf f.key events) := by
    rw [fragmentsOf_cons rfl, payloadOf, List.flatMap_cons]
    rfl
  rw [emitsFor_fragment rfl, hpayload, ← List.append_assoc]
  obtain ⟨-, -, ⟨hfinal, hnil, hpos⟩ | ⟨hfinal, hcompletes⟩⟩ := h.fragment rfl
  · obtain ⟨w, hwrite, hw⟩ := hclosed hfinal (List.ne_nil_of_length_pos (by omega))
    rw [hwrite, emitsFor_eq_nil hnil, hnil]
    simp [hw, payloadOf]
  · obtain ⟨hnone, hcarrying⟩ := hopen hfinal
    rw [hnone, Option.toList_none, List.nil_append]
    exact hrest hcarrying (by rw [hlength]; exact hcompletes)

/-- The value of which some bytes are in a slot is emitted when the others have come. -/
theorem carrying_emits {buf : List UInt8} (h : o.Carrying key buf idle)
    (hevents : Completes key buf.length idle events) :
    (emitsFor key o events).map ObservedWrite.payload =
      [buf ++ payloadOf (fragmentsOf key events)] := by
  induction events generalizing o buf idle with
  | nil =>
    obtain ⟨n, hfinals⟩ := hevents.finals
    simp [fragmentsOf] at hfinals
  | cons e events ih =>
    by_cases he : e.key? = some key
    · obtain ⟨f, rfl, hkey⟩ := ObserverEvent.eq_fragment he
      obtain ⟨hoffset, hfits, -⟩ := hevents.fragment hkey
      obtain ⟨hreachable, i, hholds, rfl, -⟩ := h
      obtain ⟨hused, hslot⟩ := (Reassembly.holds_iff key).mp hholds
      have hsettles := Observer.onAttFragment_follows hreachable.distinct
        (by rw [← hkey] at hholds; exact hholds) hoffset hfits
      exact emits_fragment hreachable hsettles hslot hkey hused hevents ih
    · obtain ⟨hspares, hrest⟩ := hevents.other he
      rw [emitsFor_other he, fragmentsOf_cons_other he]
      exact ih (h.other hspares hevents.idle_le) hrest

theorem accepted_emits (hreachable : o.Reachable) (hkey : f.key = key) (hoffset : f.offset = 0)
    (haccepts : o.Accepts key) (h : Completes key 0 idle (.fragment f :: events)) :
    (emitsFor key o (.fragment f :: events)).map ObservedWrite.payload =
      [payloadOf (fragmentsOf key (.fragment f :: events))] := by
  have hfits := (h.fragment hkey).2.1
  obtain ⟨i, r, hslot, hused, hbuf, hsettles⟩ := Observer.onAttFragment_accepted
    hreachable.distinct (hkey ▸ haccepts) hoffset (by omega)
  have hemits := emits_fragment hreachable hsettles (hslot.trans hkey) hkey hused
    (by rw [hbuf]; exact h) carrying_emits
  rw [hbuf] at hemits
  exact hemits

theorem Begins.offset (h : Begins key o events) : ∃ f ∈ fragmentsOf key events, f.offset = 0 := by
  induction events generalizing o with
  | nil => exact h.elim
  | cons e events ih =>
    rcases h with ⟨f, rfl, hkey, hoffset, -⟩ | hrest
    · exact ⟨f, by rw [fragmentsOf_cons hkey]; simp, hoffset⟩
    · obtain ⟨f, hf, hoffset⟩ := ih hrest
      refine ⟨f, ?_, hoffset⟩
      by_cases he : e.key? = some key
      · obtain ⟨g, rfl, hkey⟩ := ObserverEvent.eq_fragment he
        rw [fragmentsOf_cons hkey]
        exact List.mem_cons_of_mem _ hf
      · rwa [fragmentsOf_cons_other he]

/-- The value is emitted once a fragment of it at offset 0 is accepted. -/
theorem begins_emits (hreachable : o.Reachable) (h : Completes key 0 idle events)
    (hbegins : Begins key o events) : (emitsFor key o events).map ObservedWrite.payload =
      [payloadOf (fragmentsOf key events)] := by
  induction events generalizing o idle with
  | nil => exact hbegins.elim
  | cons e events ih =>
    rcases hbegins with ⟨f, rfl, hkey, hoffset, haccepts⟩ | hrest
    · exact accepted_emits hreachable hkey hoffset haccepts h
    · by_cases he : e.key? = some key
      · obtain ⟨f, rfl, hkey⟩ := ObserverEvent.eq_fragment he
        obtain ⟨hzero, -, hcase⟩ := h.fragment hkey
        have hoffset : f.offset = 0 := UInt16.toNat_inj.mp hzero
        by_cases haccepts : o.Accepts key
        · exact accepted_emits hreachable hkey hoffset haccepts h
        · -- a later fragment at offset 0 leaves no room for data in this one
          obtain ⟨g, hg, hgoffset⟩ := hrest.offset
          rcases hcase with ⟨-, hnil, -⟩ | ⟨-, hcompletes⟩
          · rw [hnil] at hg
            cases hg
          · have hle := hcompletes.contiguous.le hg
            have hzero : g.offset.toNat = 0 := by rw [hgoffset]; rfl
            have hdata : f.data = [] := List.length_eq_zero_iff.mp (by omega)
            have hnone := (Observer.onAttFragment_refused hreachable.distinct
              (hkey.symm ▸ haccepts) hoffset).1
            rw [hdata] at hcompletes
            rw [emitsFor_fragment hkey, hnone, Option.toList_none, List.nil_append,
              fragmentsOf_cons hkey, payloadOf, List.flatMap_cons, hdata, List.nil_append]
            exact ih (hreachable.react (.fragment f)) hcompletes hrest
      · obtain ⟨-, hcompletes⟩ := h.other he
        rw [emitsFor_other he, fragmentsOf_cons_other he]
        exact ih (hreachable.react e) hcompletes hrest

/-- Without a slot and without an accepted fragment at offset 0 nothing is emitted for the key. -/
theorem emitsFor_of_unheld (hreachable : o.Reachable)
    (hnone : ∀ j, ¬(o.reasm j).Holds key.connHandle key.attrHandle)
    (hbegins : ¬Begins key o events) : emitsFor key o events = [] := by
  induction events generalizing o with
  | nil => rfl
  | cons e events ih =>
    obtain ⟨hfirst, hrest⟩ := not_or.mp hbegins
    by_cases he : e.key? = some key
    · obtain ⟨f, rfl, hkey⟩ := ObserverEvent.eq_fragment he
      rw [emitsFor_fragment hkey]
      by_cases hoffset : f.offset = 0
      · have hrefuses : ¬o.Accepts f.key := fun haccepts =>
          hfirst ⟨f, rfl, hkey, hoffset, hkey ▸ haccepts⟩
        obtain ⟨hwrite, hfree⟩ :=
          Observer.onAttFragment_refused hreachable.distinct hrefuses hoffset
        rw [hwrite, Option.toList_none, List.nil_append]
        subst hkey
        exact ih (hreachable.react (.fragment f)) hfree hrest
      · have hfind : o.findSlot f.connHandle f.attrHandle = none := by
          subst hkey
          exact Observer.findSlot_of_unheld hnone
        have horphan : o.onAttFragment f = (o, none) := by
          simp [Observer.onAttFragment, hfind, hoffset]
        have hrest : ¬Begins key (o.onAttFragment f).1 events := hrest
        rw [horphan] at hrest ⊢
        exact ih hreachable hnone hrest
    · rw [emitsFor_other he]
      exact ih (hreachable.react e) (Observer.react_unheld hreachable.distinct hnone he) hrest

/-- The value of a logical write is emitted, and nothing else for its key, exactly when one of its
fragments at offset 0 finds no pending bytes of the key and a slot. -/
theorem write_emitted_iff (hreachable : o.Reachable) (h : LogicalWrite key events) :
    (emitsFor key o events).map ObservedWrite.payload = [payloadOf (fragmentsOf key events)] ↔
      Begins key o events := by
  constructor
  · intro hemits
    by_contra hbegins
    obtain ⟨first, rest, rfl, hkey⟩ := h.starts
    obtain ⟨hfirst, hrest⟩ := not_or.mp hbegins
    have hoffset : first.offset = 0 := UInt16.toNat_inj.mp (h.fragment hkey).1
    have hrefuses : ¬o.Accepts first.key := fun haccepts =>
      hfirst ⟨first, rfl, hkey, hoffset, hkey ▸ haccepts⟩
    obtain ⟨hwrite, hfree⟩ :=
      Observer.onAttFragment_refused hreachable.distinct hrefuses hoffset
    have hnothing : emitsFor key o (.fragment first :: rest) = [] := by
      subst hkey
      rw [emitsFor_fragment rfl, hwrite, Option.toList_none, List.nil_append]
      exact emitsFor_of_unheld (hreachable.react (.fragment first)) hfree hrest
    rw [hnothing] at hemits
    cases hemits
  · exact begins_emits hreachable h.toCompletes

/-- A write whose first fragment carries data begins when that fragment is accepted. -/
theorem begins_iff_accepts (hkey : f.key = key) (hdata : f.data ≠ [])
    (h : Completes key 0 idle (.fragment f :: events)) :
    Begins key o (.fragment f :: events) ↔ o.Accepts key := by
  obtain ⟨hzero, -, hcase⟩ := h.fragment hkey
  constructor
  · rintro (⟨-, -, -, -, haccepts⟩ | hrest)
    · exact haccepts
    · obtain ⟨g, hg, hgoffset⟩ := hrest.offset
      have hpos := List.length_pos_of_ne_nil hdata
      rcases hcase with ⟨-, hnil, -⟩ | ⟨-, hcompletes⟩
      · rw [hnil] at hg
        cases hg
      · have hle := hcompletes.contiguous.le hg
        have hgzero : g.offset.toNat = 0 := by rw [hgoffset]; rfl
        omega
  · exact fun haccepts => .inl ⟨f, rfl, hkey, UInt16.toNat_inj.mp hzero, haccepts⟩

/-- A value in one fragment. -/
theorem LogicalWrite.single (hoffset : f.offset = 0) (hfinal : f.isFinal = true)
    (hdata : f.data ≠ []) (hfits : f.data.length ≤ kMaxAttPayload) :
    LogicalWrite f.key [.fragment f] := by
  have hfragments : fragmentsOf f.key [.fragment f] = [f] := fragmentsOf_cons rfl
  have hpayload : payloadOf [f] = f.data := by simp [payloadOf]
  refine ⟨⟨?_, ?_, ?_, ⟨0, ?_⟩, by simp, ⟨fun _ => by decide, trivial⟩⟩, f, [], rfl, rfl⟩
  · rw [hfragments]
    exact ⟨by rw [hoffset]; rfl, trivial⟩
  · rw [hfragments, hpayload]
    have := List.length_pos_of_ne_nil hdata
    omega
  · rw [hfragments, hpayload]
    omega
  · rw [hfragments]
    simp [hfinal]

end Writes

/-! ### A write after an abandoned one -/

/-- The write of `sampleHistory` comes to an observer that has just started. -/
theorem write_emitted_iff_sample :
    (emitsFor ⟨1, 3⟩ sampleObserver.start sampleHistory).map ObservedWrite.payload =
        [payloadOf (fragmentsOf ⟨1, 3⟩ sampleHistory)] ↔
      Begins ⟨1, 3⟩ sampleObserver.start sampleHistory := by
  refine write_emitted_iff ⟨sampleObserver, [], _, .nil, rfl⟩ ⟨⟨⟨rfl, rfl, trivial⟩, ?_, ?_,
    ⟨1, rfl⟩, by decide, ?_⟩, _, _, rfl, rfl⟩
  · decide
  · decide
  · simp [Prompt, sampleHistory, ObserverEvent.idle, ObserverEvent.key?, ObserverEvent.elapsed,
      kReassemblyTimeoutUs, sampleFragment, Fragment.key]

/-- The first fragment of a write, after which the peer is quiet for six seconds. -/
def abandonedHistory : List ObserverEvent :=
  [.fragment (sampleFragment 1 0 [1, 2] false), .advance 6000000]

/-- The next write of the attribute, in one fragment, is dropped with the stale bytes. -/
theorem swallowed_write : ∃ s : Observing,
    Run Observing.step Always (.start sampleObserver) abandonedHistory s ∧
      LogicalWrite ⟨1, 3⟩ [.fragment (sampleFragment 1 0 [3] true)] ∧
      (∃ i, (s.observer.reasm i).inUse = false) ∧
      emitsFor ⟨1, 3⟩ s.observer [.fragment (sampleFragment 1 0 [3] true)] = [] := by
  have heval : ((Run.execute Observing.step (.start sampleObserver) abandonedHistory).any fun s =>
      decide (∃ i, (s.observer.reasm i).inUse = false) &&
      decide (emitsFor ⟨1, 3⟩ s.observer [.fragment (sampleFragment 1 0 [3] true)] = [])) =
        true := by
    decide +kernel
  obtain ⟨s, hrun, hs⟩ := (Option.any_eq_true _ _).mp heval
  simp only [Bool.and_eq_true, decide_eq_true_eq] at hs
  have hwrite : LogicalWrite (sampleFragment 1 0 [3] true).key
      [.fragment (sampleFragment 1 0 [3] true)] :=
    LogicalWrite.single rfl rfl (by decide) (by decide)
  exact ⟨s, .of_execute hrun, hwrite, hs⟩

end BleUsageMeter.Firmware
